import OjalvoChat.MessageJson
import OjalvoChat.Properties.Deadlock

namespace ojalvo

section Crash

variable {server : Server} {client_fd : Fd} {msg_in : Message}

theorem UsesAbsentField.reaction_eq (habsent : UsesAbsentField server client_fd msg_in)
    (hserver : server.Consistent) : reaction server client_fd msg_in = .crash := by
  cases habsent with
  | addressee user htype hsender husername =>
    rw [reaction_of_sender hserver hsender (by simp [htype])]
    simp [registered_reaction, htype, text_reaction, husername]
  | text user user_to htype hsender haddressee husername hother htext =>
    have hfound := hserver.users.find_by_username_iff.mpr ⟨haddressee, rfl⟩
    rw [reaction_of_sender hserver hsender (by simp [htype])]
    simp [registered_reaction, htype, text_reaction, husername, hfound, hother, htext]
  | public_text user htype hsender htext =>
    rw [reaction_of_sender hserver hsender (by simp [htype])]
    simp [registered_reaction, htype, public_text_reaction, htext]

theorem reaction_eq_crash_iff (hserver : server.Consistent) :
    reaction server client_fd msg_in = .crash ↔ UsesAbsentField server client_fd msg_in := by
  constructor
  · intro hcrash
    have hpermitted := reaction_permitted client_fd msg_in hserver
    rw [hcrash] at hpermitted
    cases hpermitted with
    | crash habsent => exact habsent
  · exact fun habsent => habsent.reaction_eq hserver

/-- A thread that uses NULL does so while the reaction is computed. -/
theorem perform_eq_null_iff (net : Net) (server : Server) (trace : List Effect) (client_fd : Fd)
    (reaction : Reaction) :
    (∃ stopped, reaction.perform net client_fd server trace = .error .null stopped) ↔ reaction = .crash := by
  constructor
  · rintro ⟨stopped, hnull⟩
    by_contra hfields
    obtain ⟨mutex, heq⟩ := stops_on_mutex_perform hfields .null stopped hnull
    cases heq
  · rintro rfl
    exact ⟨_, rfl⟩

end Crash

/-- In every reachable state a request gets by without NULL exactly when it does
not lack one of the fields that are used unchecked. -/
theorem no_null_use_iff_fields_present {net : Net} {history : List (World × Event)} {world : World}
    (hrun : ServerRun net history world) (client_fd : Fd) (msg_in : Message) :
    (∀ stopped, (message_handler_process net msg_in client_fd).run world ≠ .error .null stopped) ↔
      ¬ UsesAbsentField world.server client_fd msg_in := by
  obtain ⟨hidle, hserver⟩ := run_ready hrun
  rw [hidle, run_message_handler_process net world.server world.trace client_fd msg_in hserver,
    ← reaction_eq_crash_iff hserver, ← perform_eq_null_iff net world.server world.trace client_fd, not_exists]

/-- The line of a public text without text, and its value. -/
def textless_line : CString := .lit "\x7b\"type\":\"PUBLIC_TEXT\"\x7d"

def textless_value : CJson := .object [(.lit "type", .string (.lit "PUBLIC_TEXT"))]

def textless : Message := { message_init with type := .PUBLIC_TEXT }

def Outcome.uses_null (outcome : Outcome) : Bool :=
  match outcome with
  | .error .null _ => true
  | _ => false

/-- The text of a room that is not given: a field that is checked. -/
theorem no_null_use_iff_in_meeting :
    ∃ world : World, world.server.users.contains_by_client_fd 4 = true ∧
      ∀ stopped, (message_handler_process reliable { textless with type := .ROOM_TEXT } 4).run world ≠
        .error .null stopped := by
  obtain ⟨history, world, hrun, htest⟩ := exists_run_of_serve_all reliable meeting
    (fun _ world => world.server.users.contains_by_client_fd 4) (by decide +kernel)
  refine ⟨world, htest, (no_null_use_iff_fields_present hrun 4 _).mpr fun habsent => ?_⟩
  cases habsent <;> contradiction

/-- A message that decodes well, from a registered user, ends in `strdup (NULL)`. -/
theorem public_text_without_text_uses_null :
    ¬ ∀ (net : Net) (history : List (World × Event)) (world : World), ServerRun net history world →
      ∀ (cJSON_Parse : CString → Option CJson) (json_raw : CString) (client_fd : Fd) (msg_in : Message),
        message_from_json cJSON_Parse json_raw = some msg_in →
        ∀ stopped, (message_handler_process net msg_in client_fd).run world ≠ .error .null stopped := by
  intro hnever
  obtain ⟨history, world, hrun, htest⟩ := exists_run_of_serve_all reliable meeting
    (fun _ world => Outcome.uses_null ((message_handler_process reliable textless 4).run world))
    (by decide +kernel)
  have hdecoded : message_from_json (fun raw => if raw = textless_line then some textless_value else none)
      textless_line = some textless := by
    simp only [message_from_json, if_true, textless_value]
    rfl
  have hsafe := hnever reliable history world hrun _ _ 4 textless hdecoded
  unfold Outcome.uses_null at htest
  split at htest
  · exact hsafe _ ‹_›
  · cases htest

end ojalvo
