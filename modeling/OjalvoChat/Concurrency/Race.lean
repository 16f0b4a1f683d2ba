import OjalvoChat.Concurrency.Rooms
import OjalvoChat.Library.Contest

namespace ojalvo

section Identified

variable {users : UsersTable} {client_fd : Fd}

/-- Whoever is found by its descriptor has a name in the index. -/
theorem UsersTable.contains_of_find (hfind : (users.find_by_client_fd client_fd).isSome) :
    users.contains_by_client_fd client_fd = true := by
  obtain ⟨user, huser⟩ := Option.isSome_iff_exists.mp hfind
  obtain ⟨owner, howner, -⟩ := Option.bind_eq_some_iff.mp huser
  exact Option.isSome_iff_exists.mpr ⟨owner, howner⟩

theorem UsersTable.find_of_not_contains (hcontains : users.contains_by_client_fd client_fd = false) :
    users.find_by_client_fd client_fd = none := by
  cases hfind : users.find_by_client_fd client_fd with
  | none => rfl
  | some user =>
    rw [UsersTable.contains_of_find (by rw [hfind]; rfl)] at hcontains
    cases hcontains

end Identified

/-- What a response to a connection says about an operation. -/
def answer (operation : CString) (client_fd : Fd) (effect : Effect) : Option CString :=
  match effect with
  | .send fd message _ =>
    if fd = client_fd ∧ message.type = .RESPONSE ∧ message.operation = some operation then message.result else none
  | _ => none

/-- What several clients may ask for and only one of them can get: a name for
itself, or a new room of a name. -/
inductive Prize where
  | name (username : CString)
  | room (roomname : CString)

namespace Prize

/-- The names that the protocol allows. -/
def Valid (prize : Prize) : Prop :=
  match prize with
  | .name username => 0 < strlen username ∧ strlen username ≤ 8
  | .room roomname => 0 < strlen roomname ∧ strlen roomname ≤ ROOM_ROOMNAME_MAX_LENGTH

def Requested (prize : Prize) (msg_in : Message) : Prop :=
  match prize with
  | .name username => msg_in.type = .IDENTIFY ∧ msg_in.username = some username
  | .room roomname => msg_in.type = .NEW_ROOM ∧ msg_in.roomname = some roomname

def operation (prize : Prize) : CString :=
  match prize with
  | .name _ => .lit "IDENTIFY"
  | .room _ => .lit "NEW_ROOM"

/-- The answer to those who come too late. -/
def refusal (prize : Prize) : CString :=
  match prize with
  | .name _ => .lit "USER_ALREADY_EXISTS"
  | .room _ => .lit "ROOM_ALREADY_EXISTS"

def taken (prize : Prize) (server : Server) : Bool :=
  match prize with
  | .name username => (server.users.find_by_username username).isSome
  | .room roomname => (server.rooms.lookup roomname).isSome

/-- Who may ask: for a name, those who have none yet; for a room, those who have
one. -/
def Eligible (prize : Prize) (client_fd : Fd) (server : Server) : Prop :=
  match prize with
  | .name _ => server.users.contains_by_client_fd client_fd = false
  | .room _ => (server.users.find_by_client_fd client_fd).isSome

/-- The answers to a connection among some effects. -/
def answers (prize : Prize) (client_fd : Fd) (effects : List Effect) : List CString :=
  effects.filterMap (answer prize.operation client_fd)

/-- The answers that a handler has given. -/
def said (prize : Prize) (stage : Stage) : List CString :=
  match stage with
  | .won => [.lit "SUCCESS"]
  | .lost => [prize.refusal]
  | _ => []

theorem refusal_ne_success (prize : Prize) : prize.refusal ≠ .lit "SUCCESS" := by
  cases prize with
  | name username => exact (by decide : CString.lit "USER_ALREADY_EXISTS" ≠ .lit "SUCCESS")
  | room roomname => exact (by decide : CString.lit "ROOM_ALREADY_EXISTS" ≠ .lit "SUCCESS")

theorem said_success_iff (prize : Prize) {stage : Stage} : prize.said stage = [.lit "SUCCESS"] ↔ stage = .won := by
  cases stage <;> simp [said, prize.refusal_ne_success]

theorem said_refusal_iff (prize : Prize) {stage : Stage} : prize.said stage = [prize.refusal] ↔ stage = .lost := by
  cases stage <;> simp [said, prize.refusal_ne_success.symm]

/-- An action that takes the prize whenever it is free. -/
def Claims (prize : Prize) {A : Type} (action : Action A) : Prop :=
  ∀ server trace, prize.taken server = false → ∃ value after, action.run (.idle server trace) = .ok value after ∧
    prize.taken after.server = true

/-- The deed that takes the prize for a connection. -/
def Gives (prize : Prize) (client_fd : Fd) (deed : Deed) : Prop :=
  match prize with
  | .name username => ∃ user, deed = .register user ∧ user.username = username ∧ user.socket_fd = client_fd
  | .room roomname => ∃ named, deed = .open_room roomname named

/-- What the handler of a connection relies on: that the client may ask, and that
the name is not its own. Who has won a name has it. -/
def Relies (prize : Prize) (client_fd : Fd) (stage : Stage) (server : Server) : Prop :=
  match prize with
  | .name username => stage.Holds ∨ (prize.Eligible client_fd server ∧
    ∀ user, server.users.find_by_username username = some user → user.socket_fd ≠ client_fd)
  | .room _ => prize.Eligible client_fd server

theorem Relies.unidentified {username : CString} {client_fd : Fd} {stage : Stage} {server : Server}
    (hrelies : (Prize.name username).Relies client_fd stage server) (hstage : ¬ stage.Holds) :
    server.users.find_by_client_fd client_fd = none :=
  UsersTable.find_of_not_contains (Or.resolve_left hrelies hstage).1

end Prize

/-- What one step of a contender may do, given the tables before it. -/
inductive RaceStep (prize : Prize) (client_fd : Fd) (program : Handler Unit) (server : Server) :
    Stage → Deed → Stage → Prop where
  | notice (stage : Stage) (effects : List Effect) (hsilent : ∀ fd, prize.answers fd effects = [])
    (hstay : stage = .adding → ¬ program.Next prize.Claims) :
    RaceStep prize client_fd program server stage (.tell effects) stage
  | find_free (hfree : prize.taken server = false) : RaceStep prize client_fd program server .checking .look .adding
  | find_taken (htaken : prize.taken server = true) : RaceStep prize client_fd program server .checking .look .losing
  | take {deed : Deed} (hfree : prize.taken server = false) (hgives : prize.Gives client_fd deed) :
    RaceStep prize client_fd program server .adding deed .winning
  | miss (htaken : prize.taken server = true) (hclaims : program.Next prize.Claims) :
    RaceStep prize client_fd program server .adding .look .missed
  | seat (roomname : CString) (user : User) (hroom : prize = .room roomname) :
    RaceStep prize client_fd program server .winning (.seat roomname user) .winning
  | confirm {message : Message}
    (hanswers : ∀ fd, prize.answers fd [.send client_fd message true] =
      if fd = client_fd then prize.said .won else []) :
    RaceStep prize client_fd program server .winning (.tell [.send client_fd message true]) .won
  | refuse {message : Message}
    (hanswers : ∀ fd, prize.answers fd [.send client_fd message true] =
      if fd = client_fd then prize.said .lost else []) :
    RaceStep prize client_fd program server .losing (.tell [.send client_fd message true]) .lost

/-- The plan of a contender. None of its actions fails or blocks. -/
def race_plan (prize : Prize) (client_fd : Fd) : Program.Plan Stop World Unit Stage where
  proper stage world := world = .idle world.server world.trace ∧ prize.Relies client_fd stage world.server
  pledge stage program := ∀ value, program = .ret value → stage.Final
  takes stage program before after later :=
    ∃ deed, after = Deed.perform deed before ∧ RaceStep prize client_fd program before.server stage deed later
  jams _ _ _ := False

abbrev Races (prize : Prize) (client_fd : Fd) (stage : Stage) (program : Handler Unit) : Prop :=
  program.Follows (race_plan prize client_fd) stage

theorem Prize.free_init (prize : Prize) : prize.taken server_init = false := by
  cases prize with
  | name username => simp [Prize.taken, server_init, users_table_init, UsersTable.find_by_username]
  | room roomname => simp [Prize.taken, server_init]

section Steps

variable {prize : Prize} {client_fd : Fd} {program : Handler Unit} {server : Server} {stage later : Stage} {deed : Deed}

theorem Prize.Gives.takes (hgives : prize.Gives client_fd deed) (hfree : prize.taken server = false) :
    prize.taken (deed.apply server) = true := by
  cases prize with
  | name username =>
    obtain ⟨user, rfl, rfl, -⟩ := hgives
    have hnone : server.users.table.lookup user.username = none :=
      Option.isNone_iff_eq_none.mp (Option.isSome_eq_false_iff.mp hfree)
    simp [Prize.taken, Deed.apply, Server.register, UsersTable.add, UsersTable.find_by_username, hnone]
  | room roomname =>
    obtain ⟨named, rfl⟩ := hgives
    simp [Prize.taken, Deed.apply]

/-- A step of a contender is a step of the contest. -/
theorem RaceStep.contest (hstep : RaceStep prize client_fd program server stage deed later) :
    Stage.Step (prize.taken server) stage later (prize.taken (deed.apply server)) := by
  cases hstep with
  | notice => exact .stay _ _
  | find_free hfree => exact (show prize.taken server = _ from hfree) ▸ .find_free
  | find_taken htaken => exact (show prize.taken server = _ from htaken) ▸ .find_taken
  | take hfree hgives =>
    rw [hgives.takes hfree, hfree]
    exact .take
  | miss htaken hclaims => exact (show prize.taken server = _ from htaken) ▸ .miss
  | seat roomname user hroom =>
    subst hroom
    have hkept : (Prize.room roomname).taken ((Deed.seat roomname user).apply server) =
        (Prize.room roomname).taken server := by
      rw [Prize.taken, Prize.taken, Deed.lookup_apply, Option.isSome_map]
    rw [hkept]
    exact .stay _ _
  | confirm hanswers => exact .confirm _
  | refuse hanswers => exact .refuse _

/-- What a contender says in a step goes to its own client, and its stage tells what
it has said. -/
theorem RaceStep.answers (hstep : RaceStep prize client_fd program server stage deed later) :
    prize.said stage ++ prize.answers client_fd deed.effects = prize.said later ∧
      ∀ fd, fd ≠ client_fd → prize.answers fd deed.effects = [] := by
  have hsilent : ∀ {effects : List Effect}, (∀ fd, prize.answers fd effects = []) →
      prize.said stage = prize.said later →
      prize.said stage ++ prize.answers client_fd effects = prize.said later ∧
        ∀ fd, fd ≠ client_fd → prize.answers fd effects = [] := by
    intro effects hsilent hsame
    exact ⟨by rw [hsilent, List.append_nil, hsame], fun fd _ => hsilent fd⟩
  cases hstep with
  | notice stage effects hquiet => exact hsilent hquiet rfl
  | find_free | find_taken | miss => exact hsilent (fun _ => rfl) rfl
  | seat => exact hsilent (fun _ => rfl) rfl
  | take hfree hgives =>
    refine hsilent (fun _ => ?_) rfl
    cases prize with
    | name username =>
      obtain ⟨user, rfl, -⟩ := hgives
      rfl
    | room roomname =>
      obtain ⟨named, rfl⟩ := hgives
      rfl
  | confirm hanswers => exact ⟨(hanswers client_fd).trans (if_pos rfl), fun fd hne => (hanswers fd).trans (if_neg hne)⟩
  | refuse hanswers => exact ⟨(hanswers client_fd).trans (if_pos rfl), fun fd hne => (hanswers fd).trans (if_neg hne)⟩

/-- Contenders for a room leave the users alone. -/
theorem RaceStep.users {roomname : CString}
    (hstep : RaceStep (.room roomname) client_fd program server stage deed later) :
    (deed.apply server).users = server.users := by
  cases hstep with
  | take hfree hgives =>
    obtain ⟨named, rfl⟩ := hgives
    rfl
  | _ => rfl

/-- Contenders for a name do nothing but register themselves. -/
theorem RaceStep.register {username : CString}
    (hstep : RaceStep (.name username) client_fd program server stage deed later) :
    deed.apply server = server ∨
      (later = .winning ∧ server.users.find_by_username username = none ∧
        ∃ user, deed = .register user ∧ user.username = username ∧ user.socket_fd = client_fd) := by
  cases hstep with
  | take hfree hgives =>
    exact Or.inr ⟨rfl, Option.isNone_iff_eq_none.mp (Option.isSome_eq_false_iff.mp hfree), hgives⟩
  | seat roomname user hroom => cases hroom
  | _ => exact Or.inl rfl

theorem RaceStep.relies (hstep : RaceStep prize client_fd program server stage deed later)
    (hrelies : prize.Relies client_fd stage server) : prize.Relies client_fd later (deed.apply server) := by
  cases prize with
  | name username =>
    rcases hstep.register with hsame | ⟨rfl, -⟩
    · rw [hsame]
      exact hrelies.imp hstep.contest.holds id
    · exact Or.inl (Or.inl rfl)
  | room roomname =>
    change ((deed.apply server).users.find_by_client_fd client_fd).isSome
    rw [hstep.users]
    exact hrelies

/-- A contender leaves the others what they rely on. -/
theorem RaceStep.relies_other (hstep : RaceStep prize client_fd program server stage deed later) {fd : Fd}
    (hother : fd ≠ client_fd) {own : Stage} (hrelies : prize.Relies fd own server) :
    prize.Relies fd own (deed.apply server) := by
  cases prize with
  | name username =>
    rcases hstep.register with hsame | ⟨-, hfree, user, rfl, rfl, rfl⟩
    · rwa [hsame]
    · refine hrelies.imp id fun ⟨helig, howner⟩ => ?_
      have hadd := UsersTable.add_of_free hfree
      change (server.users.add user).contains_by_client_fd fd = false ∧
        ∀ found, (server.users.add user).find_by_username user.username = some found → found.socket_fd ≠ fd
      rw [hadd]
      constructor
      · rw [UsersTable.contains_by_client_fd, HashTable.lookup_insert_eq, if_neg hother]
        exact helig
      · intro found hfound
        rw [UsersTable.find_by_username, HashTable.lookup_insert_eq, if_pos rfl] at hfound
        cases hfound
        exact hother.symm
  | room roomname =>
    change ((deed.apply server).users.find_by_client_fd fd).isSome
    rw [hstep.users]
    exact hrelies

/-- Any contender may come upon a free prize. -/
theorem Prize.exists_free (prize : Prize) (client_fd : Fd) (stage : Stage) :
    ∃ server, prize.taken server = false ∧ prize.Relies client_fd stage server := by
  cases prize with
  | name username => exact ⟨server_init, (Prize.name username).free_init, Or.inr ⟨rfl, nofun⟩⟩
  | room roomname =>
    let user : User := ⟨.lit "ana", client_fd, .ACTIVE, by decide⟩
    have hname : ∀ other ∈ users_table_init, other.username ≠ user.username :=
      fun other hother => absurd hother (UsersTable.not_mem_init other)
    have hindexed : (users_table_init.add user).Indexed :=
      UsersTable.indexed_init.add hname fun other hother => absurd hother (UsersTable.not_mem_init other)
    have hmem : user ∈ users_table_init.add user := (UsersTable.mem_add UsersTable.indexed_init hname).mpr (Or.inl rfl)
    have hregistered : (users_table_init.add user).find_by_client_fd client_fd = some user :=
      hindexed.find_by_client_fd_iff.mpr ⟨hmem, rfl⟩
    exact ⟨server_init.register user, (Prize.room roomname).free_init, Option.isSome_iff_exists.mpr ⟨user, hregistered⟩⟩

/-- Only a thread that has found the prize free is about to take it. -/
theorem not_claims_of_races (hraces : Races prize client_fd stage program) (hstage : stage ≠ .adding) :
    ¬ program.Next prize.Claims := by
  cases program with
  | ret value => exact id
  | act action next =>
    intro hclaims
    obtain ⟨free, hfree, hrelies⟩ := prize.exists_free client_fd stage
    obtain ⟨value, after, hrun, htaken⟩ := hclaims free [] hfree
    have hact := hraces.2 (.idle free []) ⟨rfl, hrelies⟩
    rw [hrun] at hact
    obtain ⟨later, ⟨deed, rfl, hstep⟩, -⟩ := hact
    have hcontest := hstep.contest
    rw [show prize.taken (World.idle free []).server = false from hfree,
      show prize.taken (deed.apply (World.idle free []).server) = true from htaken] at hcontest
    exact hstage hcontest.takes

/-- A contender misses the prize exactly when it is about to take it too late. -/
theorem RaceStep.missed_iff (hstep : RaceStep prize client_fd program server stage deed later)
    (hraces : Races prize client_fd stage program) :
    later = .missed ↔ stage = .missed ∨ (program.Next prize.Claims ∧ prize.taken server = true) := by
  have hnever : stage ≠ .adding → later = stage ∨ later ≠ .missed ∧ stage ≠ .missed →
      (later = .missed ↔ stage = .missed ∨ (program.Next prize.Claims ∧ prize.taken server = true)) := by
    rintro hstage (rfl | ⟨hlater, hbefore⟩)
    · exact (or_iff_left fun hlate => not_claims_of_races hraces hstage hlate.1).symm
    · exact iff_of_false hlater (not_or.mpr ⟨hbefore, fun hlate => not_claims_of_races hraces hstage hlate.1⟩)
  cases hstep with
  | notice stage effects hsilent hstay =>
    by_cases hadding : stage = .adding
    · subst hadding
      exact iff_of_false nofun (not_or.mpr ⟨nofun, fun hlate => hstay rfl hlate.1⟩)
    · exact hnever hadding (Or.inl rfl)
  | take hfree hgives =>
    refine iff_of_false nofun (not_or.mpr ⟨nofun, fun hlate => ?_⟩)
    rw [hfree] at hlate
    cases hlate.2
  | miss htaken hclaims => exact iff_of_true rfl (Or.inr ⟨hclaims, htaken⟩)
  | seat => exact hnever nofun (Or.inl rfl)
  | _ => exact hnever nofun (Or.inr ⟨nofun, nofun⟩)

end Steps

end ojalvo
