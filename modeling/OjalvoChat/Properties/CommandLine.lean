import Mathlib.Data.List.Basic
import OjalvoChat.ServerOptions

namespace ojalvo

/-- What an argument says. -/
inductive Word where
  | help
  | log
  | port (operand : CString)
  | other (arg : CString)

def help_options : List CString := [.lit "-h", .lit "--help"]

def log_options : List CString := [.lit "-l", .lit "--log"]

def port_options : List CString := [.lit "-p", .lit "--port", .lit "--puerto"]

def Word.operand (word : Word) : Option CString :=
  match word with
  | .port operand => some operand
  | _ => none

/-- The grammar of the command line. A port option at its end says nothing. -/
inductive ReadAs : List CString → List Word → Prop where
  | nil : ReadAs [] []
  | help {arg : CString} {rest : List CString} {words : List Word} (harg : arg ∈ help_options)
    (hrest : ReadAs rest words) : ReadAs (arg :: rest) (.help :: words)
  | log {arg : CString} {rest : List CString} {words : List Word} (harg : arg ∈ log_options)
    (hrest : ReadAs rest words) : ReadAs (arg :: rest) (.log :: words)
  | port {arg operand : CString} {rest : List CString} {words : List Word} (harg : arg ∈ port_options)
    (hrest : ReadAs rest words) : ReadAs (arg :: operand :: rest) (.port operand :: words)
  | unfinished {arg : CString} (harg : arg ∈ port_options) : ReadAs [arg] []
  | other {arg : CString} {rest : List CString} {words : List Word} (hhelp : arg ∉ help_options)
    (hlog : arg ∉ log_options) (hport : arg ∉ port_options) (hrest : ReadAs rest words) :
    ReadAs (arg :: rest) (.other arg :: words)

/-- What a word changes. -/
def ServerOptions.obey (options : ServerOptions) (word : Word) : ServerOptions :=
  match word with
  | .help => { options with show_help := true }
  | .log => { options with log_enabled := true }
  | .port operand => { options with port_arg := some operand }
  | .other _ => options

section Grammar

variable {arg : CString} {argv : List CString} {words : List Word}

theorem mem_help_options : arg ∈ help_options ↔ arg = .lit "-h" ∨ arg = .lit "--help" := by simp [help_options]

theorem mem_log_options : arg ∈ log_options ↔ arg = .lit "-l" ∨ arg = .lit "--log" := by simp [log_options]

theorem mem_port_options : arg ∈ port_options ↔ arg = .lit "-p" ∨ arg = .lit "--port" ∨ arg = .lit "--puerto" := by
  simp [port_options]

/-- No argument is two options. -/
theorem options_disjoint :
    (∀ arg ∈ help_options, arg ∉ log_options ∧ arg ∉ port_options) ∧ ∀ arg ∈ log_options, arg ∉ port_options := by
  decide

theorem not_help_of_port (hport : arg ∈ port_options) : arg ∉ help_options ∧ arg ∉ log_options :=
  ⟨fun hhelp => (options_disjoint.1 arg hhelp).2 hport, fun hlog => options_disjoint.2 arg hlog hport⟩

/-- The words of a command line are obeyed one after the other. -/
theorem parse_args_from_of_reads (hreads : ReadAs argv words) (options : ServerOptions) :
    parse_args_from options argv = words.foldl ServerOptions.obey options := by
  induction hreads generalizing options with
  | nil => rfl
  | help harg _ ih =>
    rw [parse_args_from.eq_def]
    dsimp only
    rw [if_pos (mem_help_options.mp harg), ih]
    rfl
  | log harg _ ih =>
    have hhelp := fun hhelp => (options_disjoint.1 _ hhelp).1 harg
    rw [parse_args_from.eq_def]
    dsimp only
    rw [if_neg (mem_help_options.not.mp hhelp), if_pos (mem_log_options.mp harg), ih]
    rfl
  | port harg _ ih =>
    obtain ⟨hhelp, hlog⟩ := not_help_of_port harg
    rw [parse_args_from, if_neg (mem_help_options.not.mp hhelp), if_neg (mem_log_options.not.mp hlog),
      if_pos (mem_port_options.mp harg)]
    exact ih _
  | unfinished harg =>
    obtain ⟨hhelp, hlog⟩ := not_help_of_port harg
    rw [parse_args_from, if_neg (mem_help_options.not.mp hhelp), if_neg (mem_log_options.not.mp hlog),
      if_pos (mem_port_options.mp harg)]
    rfl
  | other hhelp hlog hport _ ih =>
    rw [parse_args_from.eq_def]
    dsimp only
    rw [if_neg (mem_help_options.not.mp hhelp), if_neg (mem_log_options.not.mp hlog),
      if_neg (mem_port_options.not.mp hport), ih]
    rfl

/-- Every command line can be read. -/
theorem exists_reads (argv : List CString) : ∃ words, ReadAs argv words := by
  induction hlength : argv.length using Nat.strong_induction_on generalizing argv with
  | _ length ih =>
    subst hlength
    cases argv with
    | nil => exact ⟨[], .nil⟩
    | cons arg rest =>
      obtain ⟨words, hwords⟩ := ih rest.length (Nat.lt_succ_self _) rest rfl
      by_cases hhelp : arg ∈ help_options
      · exact ⟨_, .help hhelp hwords⟩
      by_cases hlog : arg ∈ log_options
      · exact ⟨_, .log hlog hwords⟩
      by_cases hport : arg ∈ port_options
      · cases rest with
        | nil => exact ⟨[], .unfinished hport⟩
        | cons operand rest =>
          obtain ⟨later, hlater⟩ := ih rest.length (by simp only [List.length_cons]; omega) rest rfl
          exact ⟨_, .port hport hlater⟩
      · exact ⟨_, .other hhelp hlog hport hwords⟩

/-- There is one way to read it. -/
theorem reads_unique (hreads : ReadAs argv words) {other : List Word} (hother : ReadAs argv other) : other = words := by
  induction hreads generalizing other with
  | nil =>
    cases hother
    rfl
  | help harg _ ih =>
    obtain ⟨hlog, hport⟩ := options_disjoint.1 _ harg
    cases hother with
    | help _ hrest => rw [ih hrest]
    | log hwrong _ => exact absurd hwrong hlog
    | port hwrong _ => exact absurd hwrong hport
    | unfinished hwrong => exact absurd hwrong hport
    | other hwrong _ _ _ => exact absurd harg hwrong
  | log harg _ ih =>
    have hport := options_disjoint.2 _ harg
    cases hother with
    | help hwrong _ => exact absurd harg (options_disjoint.1 _ hwrong).1
    | log _ hrest => rw [ih hrest]
    | port hwrong _ => exact absurd hwrong hport
    | unfinished hwrong => exact absurd hwrong hport
    | other _ hwrong _ _ => exact absurd harg hwrong
  | port harg _ ih =>
    obtain ⟨hhelp, hlog⟩ := not_help_of_port harg
    cases hother with
    | help hwrong _ => exact absurd hwrong hhelp
    | log hwrong _ => exact absurd hwrong hlog
    | port _ hrest => rw [ih hrest]
    | other _ _ hwrong _ => exact absurd harg hwrong
  | unfinished harg =>
    obtain ⟨hhelp, hlog⟩ := not_help_of_port harg
    cases hother with
    | help hwrong _ => exact absurd hwrong hhelp
    | log hwrong _ => exact absurd hwrong hlog
    | unfinished _ => rfl
    | other _ _ hwrong _ => exact absurd harg hwrong
  | other hhelp hlog hport _ ih =>
    cases hother with
    | help hwrong _ => exact absurd hwrong hhelp
    | log hwrong _ => exact absurd hwrong hlog
    | port hwrong _ => exact absurd hwrong hport
    | unfinished hwrong => exact absurd hwrong hport
    | other _ _ _ hrest => rw [ih hrest]

/-- What is left of the options after some words. -/
theorem foldl_obey (words : List Word) (options : ServerOptions) :
    ((words.foldl ServerOptions.obey options).show_help = true ↔ options.show_help = true ∨ .help ∈ words) ∧
      ((words.foldl ServerOptions.obey options).log_enabled = true ↔ options.log_enabled = true ∨ .log ∈ words) ∧
      (words.foldl ServerOptions.obey options).port_arg =
        (words.filterMap Word.operand).getLast?.or options.port_arg := by
  induction words generalizing options with
  | nil => simp
  | cons word rest ih =>
    obtain ⟨hhelp, hlog, hport⟩ := ih (options.obey word)
    rw [List.foldl_cons, hhelp, hlog, hport]
    cases word with
    | port operand =>
      refine ⟨by simp [ServerOptions.obey], by simp [ServerOptions.obey], ?_⟩
      simp only [ServerOptions.obey, List.filterMap_cons, Word.operand]
      cases hlast : rest.filterMap Word.operand with
      | nil => simp
      | cons first later => simp [List.getLast?_cons]
    | _ => simp [ServerOptions.obey, Word.operand]

end Grammar

/-- A text that gives the number of a port, with what follows it. -/
def CString.NamesPort (text : CString) (port : Nat) (junk : List UInt8) : Prop :=
  text.Spells port junk ∧ 1 ≤ port ∧ port ≤ 65535

/-- The warning about what follows a number has set `errno`. -/
def Disturbed (printf_sets_errno : List UInt8 → Bool) (log_enabled : Prop) (junk : List UInt8) : Prop :=
  log_enabled ∧ junk ≠ [] ∧ printf_sets_errno junk = true

section Ports

variable {text : CString} {port named : Nat} {junk other : List UInt8}

/-- A port that is named is read. -/
theorem CString.NamesPort.read (hnames : text.NamesPort port junk) :
    (strtol text).value = port ∧ (strtol text).endptr ≠ 0 ∧ text.bytes.drop (strtol text).endptr = junk ∧
      (strtol text).errno = false := by
  obtain ⟨hspells, -, hmost⟩ := hnames
  refine strtol_of_spells hspells ?_
  unfold LONG_MAX
  omega

/-- What is read as a port is named. -/
theorem namesPort_of_read (hendptr : (strtol text).endptr ≠ 0) (herrno : (strtol text).errno = false)
    (hrange : ¬ ((strtol text).value < 1 ∨ 65535 < (strtol text).value)) :
    text.NamesPort (strtol text).value.toNat (text.bytes.drop (strtol text).endptr) :=
  ⟨spells_of_strtol hendptr herrno (by omega), by omega, by omega⟩

/-- A text names one port at most. -/
theorem CString.NamesPort.unique (hnames : text.NamesPort port junk) (hother : text.NamesPort named other) :
    port = named ∧ junk = other := by
  obtain ⟨hvalue, -, hjunk, -⟩ := hnames.read
  obtain ⟨hsame, -, hrest, -⟩ := hother.read
  exact ⟨by omega, hjunk.symm.trans hrest⟩

/-- `errno` where the server tests it. -/
theorem errno_eq_true_iff (printf_sets_errno : List UInt8 → Bool) (junk : List UInt8) (log_enabled errno : Bool) :
    (if junk ≠ [] then log_info printf_sets_errno log_enabled junk errno else errno) = true ↔
      errno = true ∨ Disturbed printf_sets_errno (log_enabled = true) junk := by
  by_cases hjunk : junk = []
  · simp [hjunk, Disturbed]
  · cases log_enabled <;> simp [hjunk, Disturbed, log_info]

/-- The port that is named, or the usual one if none is or the warning has set `errno`. -/
theorem server_resolve_port_cases (printf_sets_errno : List UInt8 → Bool) (options : ServerOptions) :
    (∃ port_arg named junk, options.port_arg = some port_arg ∧ port_arg.NamesPort named junk ∧
      ¬ Disturbed printf_sets_errno (options.log_enabled = true) junk ∧
      server_resolve_port printf_sets_errno options = named) ∨
    ((∀ port_arg, options.port_arg = some port_arg → ∀ named junk, port_arg.NamesPort named junk →
        Disturbed printf_sets_errno (options.log_enabled = true) junk) ∧
      server_resolve_port printf_sets_errno options = SERVER_DEFAULT_PORT) := by
  unfold server_resolve_port
  cases options.port_arg with
  | none => exact Or.inr ⟨fun port_arg hsome => (by cases hsome), rfl⟩
  | some port_arg =>
    dsimp only
    have htest := errno_eq_true_iff printf_sets_errno (port_arg.bytes.drop (strtol port_arg).endptr)
      options.log_enabled (strtol port_arg).errno
    -- `errno` where it is tested, not the test that is in it
    generalize (if port_arg.bytes.drop (strtol port_arg).endptr ≠ [] then _ else _) = errno at htest ⊢
    split_ifs with hendptr herrno hrange
    · refine Or.inr ⟨fun text hsome named junk hnames => ?_, rfl⟩
      cases hsome
      exact absurd hendptr hnames.read.2.1
    · refine Or.inr ⟨fun text hsome named junk hnames => ?_, rfl⟩
      cases hsome
      obtain ⟨-, -, hjunk, hclear⟩ := hnames.read
      rw [hclear, hjunk] at htest
      exact (htest.mp herrno).resolve_left Bool.false_ne_true
    · refine Or.inr ⟨fun text hsome named junk hnames => ?_, rfl⟩
      cases hsome
      obtain ⟨hvalue, -⟩ := hnames.read
      obtain ⟨-, hleast, hmost⟩ := hnames
      omega
    · obtain ⟨hclear, hundisturbed⟩ := not_or.mp fun h => herrno (htest.mpr h)
      exact Or.inl ⟨port_arg, _, _, rfl, namesPort_of_read hendptr (Bool.eq_false_iff.mpr hclear) hrange, hundisturbed,
        by omega⟩

theorem server_resolve_port_iff (printf_sets_errno : List UInt8 → Bool) (options : ServerOptions) (port : Nat) :
    server_resolve_port printf_sets_errno options = port ↔
      (∃ port_arg junk, options.port_arg = some port_arg ∧ port_arg.NamesPort port junk ∧
        ¬ Disturbed printf_sets_errno (options.log_enabled = true) junk) ∨
      (port = SERVER_DEFAULT_PORT ∧ ∀ port_arg, options.port_arg = some port_arg → ∀ named junk,
        port_arg.NamesPort named junk → Disturbed printf_sets_errno (options.log_enabled = true) junk) := by
  rcases server_resolve_port_cases printf_sets_errno options with
    ⟨port_arg, named, junk, hsome, hnames, hundisturbed, hport⟩ | ⟨hnone, hport⟩
  · rw [hport, Int.ofNat_inj]
    constructor
    · rintro rfl
      exact Or.inl ⟨port_arg, junk, hsome, hnames, hundisturbed⟩
    · rintro (⟨text, other, htext, hother, -⟩ | ⟨-, hall⟩)
      · obtain rfl := Option.some.inj (hsome.symm.trans htext)
        exact (hnames.unique hother).1
      · exact absurd (hall port_arg hsome named junk hnames) hundisturbed
  · rw [hport, Int.ofNat_inj]
    constructor
    · rintro rfl
      exact Or.inr ⟨rfl, hnone⟩
    · rintro (⟨text, junk, htext, hother, hundisturbed⟩ | ⟨rfl, -⟩)
      · exact absurd (hnone text htext port junk hother) hundisturbed
      · rfl

end Ports

/-- The command line is read in the only way that its grammar allows: help and the
log are asked for by their options, and the port is the number that the operand
of the last port option begins with, if this is the number of a port and logging
what follows it leaves `errno` alone. Otherwise it is 1234. -/
theorem command_line_is_read (printf_sets_errno : List UInt8 → Bool) (argv : List CString) :
    ∃ words, ReadAs argv words ∧ (∀ other, ReadAs argv other → other = words) ∧
      ((server_parse_args argv).show_help = true ↔ .help ∈ words) ∧
      ((server_parse_args argv).log_enabled = true ↔ .log ∈ words) ∧
      ∀ port : Nat, server_resolve_port printf_sets_errno (server_parse_args argv) = port ↔
        (∃ operand junk, (words.filterMap Word.operand).getLast? = some operand ∧ operand.NamesPort port junk ∧
          ¬ Disturbed printf_sets_errno (.log ∈ words) junk) ∨
        (port = SERVER_DEFAULT_PORT ∧ ∀ operand, (words.filterMap Word.operand).getLast? = some operand →
          ∀ named junk, operand.NamesPort named junk → Disturbed printf_sets_errno (.log ∈ words) junk) := by
  obtain ⟨words, hreads⟩ := exists_reads argv
  have hparse : server_parse_args argv = _ := parse_args_from_of_reads hreads _
  obtain ⟨hhelp, hlog, hport⟩ := foldl_obey words { show_help := false, log_enabled := false, port_arg := none }
  have hlogged : (server_parse_args argv).log_enabled = true ↔ .log ∈ words := by
    rw [hparse, hlog]
    simp
  refine ⟨words, hreads, fun other hother => reads_unique hreads hother, ?_, hlogged, fun port => ?_⟩
  · rw [hparse, hhelp]
    simp
  · rw [server_resolve_port_iff, hlogged, hparse, hport, Option.or_none]

example (printf_sets_errno : List UInt8 → Bool) :
    server_resolve_port printf_sets_errno (server_parse_args [.lit "server", .lit "-p", .lit " +0080x"]) = 80 := rfl

end ojalvo
