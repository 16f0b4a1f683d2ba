import OjalvoChat.Strtol

namespace ojalvo

def SERVER_DEFAULT_PORT : Nat := 1234

structure ServerOptions where
  show_help : Bool
  log_enabled : Bool
  port_arg : Option CString

/-- The loop over the arguments. A port option takes the argument behind it, if
there is one. -/
def parse_args_from (options : ServerOptions) (argv : List CString) : ServerOptions :=
  match argv with
  | [] => options
  | arg :: rest =>
    if arg = .lit "-h" ∨ arg = .lit "--help" then parse_args_from { options with show_help := true } rest
    else if arg = .lit "-l" ∨ arg = .lit "--log" then parse_args_from { options with log_enabled := true } rest
    else if arg = .lit "-p" ∨ arg = .lit "--port" ∨ arg = .lit "--puerto" then
      match rest with
      | [] => options
      | port_arg :: rest => parse_args_from { options with port_arg := some port_arg } rest
    else parse_args_from options rest

/-- All of the arguments are read, the name of the program too. -/
def server_parse_args (argv : List CString) : ServerOptions :=
  parse_args_from { show_help := false, log_enabled := false, port_arg := none } argv

section Port

-- Whether `printf` sets `errno` when it prints some bytes with the warning is up to
-- the system.
variable (printf_sets_errno : List UInt8 → Bool)

/-- `errno` after `log_info`. -/
def log_info (enabled : Bool) (text : List UInt8) (errno : Bool) : Bool :=
  if !enabled then errno else errno || printf_sets_errno text

def server_resolve_port (options : ServerOptions) : Int :=
  match options.port_arg with
  | none => SERVER_DEFAULT_PORT
  | some port_arg =>
    let parsed := strtol port_arg
    let junk := port_arg.bytes.drop parsed.endptr
    if parsed.endptr = 0 then SERVER_DEFAULT_PORT
    else
      -- what is logged about the junk comes before the test of `errno`
      let errno := if junk ≠ [] then log_info printf_sets_errno options.log_enabled junk parsed.errno else parsed.errno
      if errno then SERVER_DEFAULT_PORT
      else if parsed.value < 1 ∨ 65535 < parsed.value then SERVER_DEFAULT_PORT
      else parsed.value

end Port

end ojalvo
