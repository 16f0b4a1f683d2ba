import OjalvoChat.Protocol.Connected
import OjalvoChat.Protocol.Replay
import OjalvoChat.Protocol.Touched

namespace ojalvo

/-- A line that was sent on a descriptor. -/
def Event.is_line (client_fd : Fd) (event : Event) : Bool :=
  match event with
  | .accept _ => false
  | .request fd _ => fd = client_fd
  | .invalid fd => fd = client_fd

/-- The event adds a user to `server->users`. -/
def Event.Identifies (server : Server) (event : Event) : Prop := ∃ user, event.reaction server = .register user

/-- Nobody is registered under a descriptor. -/
def Server.Unidentified (server : Server) (client_fd : Fd) : Prop := ∀ username, ¬ server.Registered client_fd username

/-- Something is sent to a descriptor, or it is closed. -/
def Effect.concerns (client_fd : Fd) (effect : Effect) : Bool :=
  match effect with
  | .accept _ => false
  | .send fd _ _ => fd = client_fd
  | .close fd => fd = client_fd

section Steps

variable {net : Net} {server : Server} {trace : List Effect} {client_fd : Fd} {event : Event} {after : World}
  (hserver : server.Consistent) (hanonymous : server.Unidentified client_fd)
include hserver hanonymous

theorem find_by_client_fd_of_unidentified : server.users.find_by_client_fd client_fd = none := by
  rw [hserver.users.find_by_client_fd_eq_none_iff]
  intro user hmem hfd
  exact hanonymous user.username (hserver.users.lists_iff.mpr ⟨user, hmem, rfl, hfd⟩)

/-- The reactions to a line of a connection that stays unidentified. -/
theorem reaction_of_unidentified (hline : event.is_line client_fd = true) (hidentify : ¬ event.Identifies server) :
    (∃ answer, event.reaction server = .ignore answer) ∨ (∃ message, event.reaction server = .refuse message) ∨
      event.reaction server = .leave := by
  have hunknown := find_by_client_fd_of_unidentified hserver hanonymous
  cases event with
  | accept fd => cases hline
  | invalid fd => exact Or.inr (Or.inl ⟨_, rfl⟩)
  | request fd msg_in =>
    obtain rfl : fd = client_fd := of_decide_eq_true hline
    unfold Event.Identifies Event.reaction reaction at hidentify
    unfold Event.reaction reaction
    dsimp only at hidentify ⊢
    by_cases hunsupported : msg_in.type = .UNKNOWN
    · simp [hunsupported]
    · by_cases hdisconnect : msg_in.type = .DISCONNECT
      · simp [hdisconnect]
      · by_cases hidentifying : msg_in.type = .IDENTIFY
        · simp only [hidentifying, reduceCtorEq, if_false, if_true, identify_reaction, hunknown] at hidentify ⊢
          cases husername : msg_in.username with
          | none => simp
          | some requested =>
            simp only [husername] at hidentify ⊢
            cases hname : server.users.find_by_username (requested.cut 8) with
            | some user =>
              simp only
              split <;> simp
            | none =>
              simp only [hname] at hidentify ⊢
              cases hinit : user_init (requested.cut 8) fd with
              | none => simp
              | some user =>
                rw [hinit] at hidentify
                exact absurd ⟨user, rfl⟩ hidentify
        · simp [hunsupported, hdisconnect, hidentifying, hunknown]

/-- A line of such a connection changes nothing and is answered on its own
descriptor at most. -/
theorem served_line_of_unidentified (hline : event.is_line client_fd = true) (hidentify : ¬ event.Identifies server)
    (hserved : Served net (.idle server trace) event after) :
    after.server = server ∧
      ∃ effects, after.trace = trace ++ effects ∧ ∀ effect ∈ effects, effect.concerns client_fd = true := by
  have hunknown := find_by_client_fd_of_unidentified hserver hanonymous
  have hdeparted : ∀ trace, departed net server trace client_fd = .idle server (trace ++ [.close client_fd]) := by
    intro trace
    simp [departed, Server.depart, departure_notices, hunknown]
  have hfinal := final_world_serve net trace hserver event
  rw [hserved] at hfinal
  change after = _ at hfinal
  have hfd : event.client_fd = client_fd := by
    cases event with
    | accept fd => cases hline
    | request fd msg_in => exact of_decide_eq_true hline
    | invalid fd => exact of_decide_eq_true hline
  have hperformed : after = final_world ((event.reaction server).perform net client_fd server trace) := by
    cases event with
    | accept fd => cases hline
    | request fd msg_in => rw [hfinal, hfd]
    | invalid fd => rw [hfinal, hfd]
  rcases reaction_of_unidentified hserver hanonymous hline hidentify with ⟨answer, hreaction⟩ | ⟨message, hreaction⟩ |
    hreaction
  · rw [hreaction] at hperformed
    exact ⟨by rw [hperformed]; rfl, [], by rw [hperformed]; simp [Reaction.perform, final_world], by simp⟩
  · rw [hreaction] at hperformed
    simp only [Reaction.perform, hdeparted, final_world] at hperformed
    refine ⟨by rw [hperformed], _, by rw [hperformed, List.append_assoc], ?_⟩
    simp [Effect.concerns]
  · rw [hreaction] at hperformed
    simp only [Reaction.perform, hdeparted, final_world] at hperformed
    refine ⟨by rw [hperformed], _, by rw [hperformed], ?_⟩
    simp [Effect.concerns]

/-- Any other event leaves such a connection alone. -/
theorem served_other_of_unidentified (hother : event.is_line client_fd = false)
    (hserved : Served net (.idle server trace) event after) :
    after.server.Unidentified client_fd ∧
      ∃ effects, after.trace = trace ++ effects ∧ ∀ effect ∈ effects, effect.concerns client_fd = false := by
  by_cases haccept : ∃ fd, event = .accept fd
  · obtain ⟨fd, rfl⟩ := haccept
    rw [served_accept hserved]
    exact ⟨hanonymous, _, rfl, by simp [Effect.concerns]⟩
  · have hfd : event.client_fd ≠ client_fd := by
      cases event with
      | accept fd => exact absurd ⟨fd, rfl⟩ haccept
      | request fd msg_in => exact of_decide_eq_false hother
      | invalid fd => exact of_decide_eq_false hother
    have hpermitted := event.permitted hserver
    have hsettled := hpermitted.settled_consistent net trace hserver
    obtain ⟨later, hafter⟩ := served_leaves hserver hserved
    constructor
    · intro username hregistered
      rw [hafter, hsettled.registered_evict_all, hpermitted.registered_settled hserver] at hregistered
      rcases hregistered.1 with hold | ⟨user, hregister, -, hself⟩
      · exact hanonymous username hold
      · rw [hregister] at hpermitted
        cases hpermitted with
        | register _ hrequester _ _ _ => exact hfd (hrequester.symm.trans hself)
    · have hwithin : server.Within (· ≠ client_fd) :=
        hserver.users.find_by_client_fd_eq_none_iff.mp (find_by_client_fd_of_unidentified hserver hanonymous)
      obtain ⟨effects, htrace, htouches⟩ := served_touches hserver hwithin hfd hserved
      refine ⟨effects, htrace, fun effect hmem => ?_⟩
      have hapart := htouches effect hmem
      cases effect with
      | accept fd => rfl
      | send fd message sent => exact decide_eq_false hapart
      | close fd => exact decide_eq_false hapart

end Steps

section Runs

variable {net : Net} {client_fd : Fd} {start world : World} {history : List (World × Event)}

/-- Along a part of a run in which no IDENTIFY of a connection succeeds, the
connection stays unidentified. -/
theorem run_unidentified (hready : start.Ready) (hanonymous : start.server.Unidentified client_fd)
    (hrun : Run (Served net) start history world)
    (hidentify : ∀ before event, (before, event) ∈ history → event.is_line client_fd = true →
      ¬ event.Identifies before.server) :
    (world.Ready ∧ world.server.Unidentified client_fd) ∧
      ∀ before event, (before, event) ∈ history → before.Ready ∧ before.server.Unidentified client_fd := by
  obtain ⟨hworld, hbefore⟩ := hrun.invariant_under (I := fun world => world.Ready ∧ world.server.Unidentified client_fd)
    (C := fun before event => event.is_line client_fd = true → ¬ event.Identifies before.server) hidentify
    ⟨hready, hanonymous⟩ (by
      rintro before event after ⟨hready, hanonymous⟩ hcondition hserved
      refine ⟨served_ready hready hserved, ?_⟩
      have hidle := hready.idle
      rw [hidle] at hserved
      cases hline : event.is_line client_fd with
      | true =>
        obtain ⟨hsame, -⟩ := served_line_of_unidentified hready.consistent hanonymous hline (hcondition hline) hserved
        rw [hsame]
        exact hanonymous
      | false => exact (served_other_of_unidentified hready.consistent hanonymous hline hserved).1)
  exact ⟨hworld, fun before event hmem => (hbefore before event hmem).1⟩

end Runs

/-- Lines that leave their connection unidentified have no effect on others:
they change no table, are answered on their own descriptor at most, and the run
without them leads to the same tables through the same other effects. -/
theorem anonymous_lines_have_no_effect (net : Net) (client_fd : Fd) (earlier : List (World × Event)) (start : World)
    (hearlier : ServerRun net earlier start) (hanonymous : start.server.Unidentified client_fd)
    (window : List (World × Event)) (between : World) (hwindow : Run (Served net) start window between)
    (hidentify : ∀ before event, (before, event) ∈ window → event.is_line client_fd = true →
      ¬ event.Identifies before.server)
    (later : List (World × Event)) (world : World) (hlater : Run (Served net) between later world) :
    (∀ before event after, (before, event) ∈ window → event.is_line client_fd = true → Served net before event after →
        after.server = before.server ∧
          ∃ effects, after.trace = before.trace ++ effects ∧ ∀ effect ∈ effects, effect.concerns client_fd = true) ∧
      ∃ other history without during rest, ServerRun other history without ∧
        history.map Prod.snd = later.map Prod.snd ++
          ((window.map Prod.snd).filter fun event => ! event.is_line client_fd) ++ earlier.map Prod.snd ∧
        between.trace = start.trace ++ during ∧ world.trace = between.trace ++ rest ∧
        without.server = world.server ∧
        without.trace = start.trace ++ (during.filter fun effect => ! effect.concerns client_fd) ++ rest := by
  have hready := run_ready hearlier
  obtain ⟨⟨hbetween, -⟩, hmoments⟩ := run_unidentified hready hanonymous hwindow hidentify
  constructor
  · intro before event after hmem hline hserved
    obtain ⟨hbefore, hunidentified⟩ := hmoments before event hmem
    rw [hbefore.idle] at hserved
    exact served_line_of_unidentified hbefore.consistent hunidentified hline (hidentify before event hmem hline) hserved
  · obtain ⟨before, hbefore, hrepeatearlier⟩ := run_of_replays (ready_idle Server.consistent_init) hearlier
    obtain ⟨rest, hrest, hrepeatlater⟩ := run_of_replays hbetween hlater
    obtain ⟨during, hduring, hrepeatwindow⟩ := run_without (fun event => event.is_line client_fd)
      (fun effect => ! effect.concerns client_fd) hready hwindow (by
        intro before event after effects hmem hbefore hserved htrace
        have hunidentified := (hmoments before event hmem).2
        rw [hbefore.idle] at hserved
        split
        · rename_i hline
          obtain ⟨hsame, own, hown, hconcerns⟩ := served_line_of_unidentified hbefore.consistent hunidentified hline
            (hidentify before event hmem hline) hserved
          obtain rfl := List.append_cancel_left (hown.symm.trans htrace)
          exact ⟨hsame, fun effect heffect => by rw [hconcerns effect heffect]; rfl⟩
        · rename_i hline
          obtain ⟨-, own, hown, hconcerns⟩ := served_other_of_unidentified hbefore.consistent hunidentified
            (Bool.not_eq_true _ ▸ hline) hserved
          obtain rfl := List.append_cancel_left (hown.symm.trans htrace)
          exact fun effect heffect => by rw [hconcerns effect heffect]; rfl)
    have hstart : start.trace = before := hbefore
    let kept := during.filter fun effect => ! effect.concerns client_fd
    have hreplays := replays_replay [] (before ++ kept ++ rest) []
    simp only [List.append_nil, List.nil_append] at hreplays
    obtain ⟨hfirst, hlast⟩ := hreplays.of_append
    obtain ⟨hfirst, hmiddle⟩ := hfirst.of_append
    obtain ⟨first, hrunfirst, heventsfirst⟩ := hrepeatearlier _ [] hfirst
    obtain ⟨middle, hrunmiddle, heventsmiddle⟩ := hrepeatwindow _ ([] ++ before) hmiddle
    obtain ⟨last, hrunlast, heventslast⟩ := hrepeatlater _ ([] ++ before ++ kept) hlast
    refine ⟨_, last ++ (middle ++ first), _, during, rest, (hrunfirst.trans hrunmiddle).trans hrunlast, ?_, hduring,
      hrest, rfl, ?_⟩
    · rw [List.map_append, List.map_append, heventsfirst, heventsmiddle, heventslast, List.append_assoc]
    · rw [hstart]
      rfl

/-- An event that completes leads to its final world. -/
theorem served_final_world {net : Net} {event : Event} (world : World)
    (hcompletes : (serve_once net world event).isSome = true) :
    Served net world event (final_world ((serve net event).run world)) := by
  unfold serve_once at hcompletes
  unfold Served
  cases hrun : (serve net event).run world with
  | ok _ after => rfl
  | error why stopped => simp [hrun] at hcompletes

/-- A text from a connection that has not identified itself. -/
def stranger_text : Event :=
  .request 5 { message_init with type := .TEXT, username := some (.lit "ana"), text := some (.lit "hola") }

def ana_identifies : Event := .request 4 { message_init with type := .IDENTIFY, username := some (.lit "ana") }

/-- The stranger is refused, ana identifies herself, and all of this would be the
same without the stranger's text. -/
theorem anonymous_lines_have_no_effect_of_stranger :
    ∃ between world, Served reliable (.idle server_init []) stranger_text between ∧
      Served reliable between ana_identifies world ∧ between.server = server_init ∧
      ∃ other history without, ServerRun other history without ∧ history.map Prod.snd = [ana_identifies] ∧
        without.server = world.server := by
  have hstranger : Served reliable (.idle server_init []) stranger_text _ := served_final_world _ (by decide +kernel)
  have hana : Served reliable _ ana_identifies _ :=
    served_final_world (final_world ((serve reliable stranger_text).run (.idle server_init []))) (by decide +kernel)
  have hanonymous : server_init.Unidentified 5 := fun _ => UsersTable.not_lists_init
  obtain ⟨hlines, other, history, without, -, -, hrun, hevents, -, -, hserver, -⟩ :=
    anonymous_lines_have_no_effect reliable 5 [] (.idle server_init []) .start hanonymous
      [(.idle server_init [], stranger_text)] _ (Run.start.step hstranger)
      (by
        intro before event hmem _
        cases List.mem_singleton.mp hmem
        rintro ⟨user, hreaction⟩
        cases hreaction)
      [(_, ana_identifies)] _ (Run.start.step hana)
  exact ⟨_, _, hstranger, hana, (hlines _ _ _ List.mem_cons_self rfl hstranger).1, other, history, without, hrun,
    hevents, hserver⟩

end ojalvo
