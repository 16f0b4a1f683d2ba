import OjalvoChat.Concurrency.Seating
import OjalvoChat.Library.Since

namespace ojalvo

/-- A connection has been told that it has joined or opened a room, and has not
asked to leave the room since. -/
def Confirmed (fd : Fd) (roomname : CString) (history : List (Pool × Turn)) (pool : Pool) : Prop :=
  Since
    (fun _ before turn => ∃ after message, PoolStep reliable before turn after ∧
      Effect.send fd message true ∈ after.world.effects_since before.world ∧
      (message.Confirms (.lit "JOIN_ROOM") ∨ message.Confirms (.lit "NEW_ROOM")) ∧ message.extra = some roomname)
    (fun before turn => ∀ index session msg_in, turn = .start index (some msg_in) →
      before.sessions[index]? = some session → session.client_fd = fd → ¬ msg_in.Leaves roomname)
    (fun _ => True) history pool

/-- Whoever is confirmed in a room is a member of it, and is not leaving it. -/
structure Pool.Holds (pool : Pool) (fd : Fd) (roomname : CString) : Prop where
  member : ∃ username, pool.world.server.Member roomname fd username
  stays : ∀ (index : Nat) (session : Session) (job : Job), pool.sessions[index]? = some session →
    session.client_fd = fd → session.job = some job → ¬ job.event.message.Leaves roomname

section Runs

variable {history : List (Pool × Turn)} {before after : Pool} {turn : Turn} {known later : Knowledge} {fd : Fd}
  {roomname username : CString}

theorem Sayable.confirms_room {client_fd : Fd} {event : Event} {facts : List Fact} {message : Message}
    (hsayable : Sayable client_fd event facts fd message)
    (hconfirms : message.Confirms (.lit "JOIN_ROOM") ∨ message.Confirms (.lit "NEW_ROOM"))
    (hextra : message.extra = some roomname) :
    fd = client_fd ∧ (.joined roomname ∈ facts ∨ .lost roomname ∈ facts) ∧
      (event.message.type = .JOIN_ROOM ∨ event.message.type = .NEW_ROOM) := by
  have hresult : message.result = some (.lit "SUCCESS") := hconfirms.elim (fun h => h.2.2) fun h => h.2.2
  cases hsayable with
  | plain fd hplain => exact absurd hresult hplain.2
  | identified username hnamed =>
    have hother : ∀ operation : CString, operation ≠ .lit "IDENTIFY" →
        ¬ (response (.lit "IDENTIFY") (.lit "SUCCESS") username).Confirms operation :=
      fun operation hother hconfirms => hother (Option.some.inj hconfirms.2.1).symm
    rcases hconfirms with hjoin | hnew
    · exact absurd hjoin (hother _ (by decide))
    · exact absurd hnew (hother _ (by decide))
  | seated operation room hrequest hseated =>
    obtain rfl : room = roomname := Option.some.inj hextra
    exact ⟨rfl, hseated, hrequest.imp And.right And.right⟩
  | text_from user htext haddressee =>
    rcases hconfirms with hjoin | hnew
    · exact absurd (htext.symm.trans hjoin.1) nofun
    · exact absurd (htext.symm.trans hnew.1) nofun

/-- A member stays one in every turn, unless its own handler leaves the room. -/
theorem Moves.stays_member (hmoves : Moves reliable before known turn after later) (horderly : before.Orderly known)
    (hmember : before.world.server.Member roomname fd username)
    (hstays : ∀ index session job, turn = .act index → before.sessions[index]? = some session →
      session.client_fd = fd → session.job = some job → ¬ job.event.message.Leaves roomname) :
    after.world.server.Member roomname fd username := by
  rcases hmoves.deed_or_quiet with ⟨hserver, -⟩ |
    ⟨index, session, job, deed, facts, rfl, hsession, hjob, hworld, hown, -⟩
  · exact hserver ▸ hmember
  · rw [hworld]
    exact hown.stays_member horderly.seated (horderly.seating index session hsession) hmember
      fun hfd => hstays index session job rfl hsession hfd.symm hjob

theorem Moves.holds (hmoves : Moves reliable before known turn after later) (horderly : before.Orderly known)
    (hstep : PoolStep reliable before turn after)
    (hbefore : ∀ fd roomname, Confirmed fd roomname history before → before.Holds fd roomname)
    (hconfirmed : Confirmed fd roomname ((before, turn) :: history) after) : after.Holds fd roomname := by
  cases hconfirmed with
  | last hold hkeeps =>
    obtain ⟨⟨username, hmember⟩, hstays⟩ := hbefore fd roomname hold
    refine ⟨⟨username, hmoves.stays_member horderly hmember fun index session job _ => hstays index session job⟩, ?_⟩
    intro index session job hsession hfd hjob
    obtain ⟨found, hfound, hsame, ⟨running, hrunning, hevent⟩ | ⟨line, rfl, hevent⟩⟩ := hmoves.event hsession hjob
    · rw [← hevent]
      exact hstays index found running hfound (hsame.trans hfd) hrunning
    · rw [hevent]
      cases line with
      | none => exact fun hleaves => absurd hleaves.1 nofun
      | some msg_in => exact hkeeps index found msg_in rfl hfound (hsame.trans hfd)
  | begin hbegins =>
    obtain ⟨other, message, htaken, hsent, hconfirms, hextra⟩ := hbegins
    obtain rfl : other = after := Option.some.inj (htaken.symm.trans hstep)
    rcases hmoves.said hsent with ⟨_, heq⟩ | ⟨index, session, job, rfl, hsession, hjob, hsaid⟩
    · cases heq
    rcases hsaid with ⟨_, heq⟩ | ⟨_, _, trace, heq, hsayable⟩
    · cases heq
    cases heq
    obtain ⟨rfl, hseated, htype⟩ := hsayable.confirms_room hconfirms hextra
    have hseating := horderly.seating index session hsession
    obtain ⟨username, hmember⟩ : ∃ username, before.world.server.Member roomname session.client_fd username := by
      rcases hseated with hjoined | hlost
      · exact hseating _ hjoined
      · exact (hseating _ hlost).elim
    have hstays : ∀ (other : Nat) (found : Session) (running : Job), before.sessions[other]? = some found →
        found.client_fd = session.client_fd → found.job = some running → ¬ running.event.message.Leaves roomname := by
      intro other found running hfound hfd hrunning hleaves
      obtain rfl := index_eq_of_client_fd_eq horderly.distinct hfound hsession hfd
      obtain rfl := Option.some.inj (hfound.symm.trans hsession)
      obtain rfl := Option.some.inj (hrunning.symm.trans hjob)
      rcases htype with hjoin | hnew
      · exact absurd (hjoin.symm.trans hleaves.1) nofun
      · exact absurd (hnew.symm.trans hleaves.1) nofun
    refine ⟨⟨username, hmoves.stays_member horderly hmember
      fun other found running _ => hstays other found running⟩, ?_⟩
    intro other found running hfound hfd hrunning
    obtain ⟨old, hold, hsame, ⟨acting, hacting, hevent⟩ | ⟨line, hstart, -⟩⟩ := hmoves.event hfound hrunning
    · rw [← hevent]
      exact hstays other old acting hold (hsame.trans hfd) hacting
    · cases hstart

/-- Whoever has been told that it is in a room, and has not asked to leave it, is a
member of it whenever no handler is in progress. -/
theorem confirmed_members_stay {pool : Pool} (hrun : PoolRun reliable history pool)
    (hconnected : ∀ fd, Effect.close fd ∉ pool.world.trace) (hquiet : pool.Quiescent)
    (hturns : ∀ moment ∈ history, RoomsStay moment.1 moment.2) (hconfirmed : Confirmed fd roomname history pool) :
    ∃ username, pool.world.server.Member roomname fd username := by
  obtain ⟨known, -, hholds⟩ := pool_invariant (C := RoomsStay)
    (I := fun history pool known => ¬ pool.Disturbed →
      pool.Orderly known ∧ ∀ fd roomname, Confirmed fd roomname history pool → pool.Holds fd roomname)
    hrun hturns (fun _ => ⟨orderly_init, fun fd roomname hconfirmed => by cases hconfirmed⟩)
    fun history before known turn after later htracks hlater hbefore hstay hstep hmoves hundisturbed => by
      obtain ⟨horderly, hkept⟩ := hbefore fun hdisturbed => hundisturbed (hmoves.disturbed hdisturbed)
      exact ⟨hmoves.orderly htracks hlater hundisturbed hstay horderly,
        fun fd roomname hconfirmed => hmoves.holds horderly hstep hkept hconfirmed⟩
  refine ((hholds ?_).2 fd roomname hconfirmed).member
  rintro (⟨closed, hclosed⟩ | ⟨index, job, closing, hjob, -⟩)
  · exact hconnected closed hclosed
  · rw [hquiet.job_eq_none] at hjob
    cases hjob

end Runs

section Examples

def room_request (type : MessageType) : Message := { message_init with type, roomname := some (.lit "sala") }

/-- A client registers, opens a room and invites another client to it. -/
def open_house : List Turn :=
  let identify (username : CString) : Message := { message_init with type := .IDENTIFY, username := some username }
  [.accept 4, .accept 5, .start 0 (some (identify (.lit "ana")))] ++ List.replicate 12 (.act 0) ++
    .start 1 (some (identify (.lit "luis"))) :: List.replicate 12 (.act 1) ++
    .start 0 (some (room_request .NEW_ROOM)) :: List.replicate 11 (.act 0) ++
    .start 0 (some { room_request .INVITE with usernames := some [.lit "luis"] }) :: List.replicate 13 (.act 0)

/-- A test: a turn tells a connection that it has joined or opened a room. -/
def confirms (fd : Fd) (roomname : CString) (before : Pool) (turn : Turn) : Bool :=
  (pool_step reliable before turn).any fun after => (after.world.effects_since before.world).any fun effect =>
    match effect with
    | .send client_fd message true => decide (client_fd = fd) && decide (message.type = .RESPONSE) &&
      (decide (message.operation = some (.lit "JOIN_ROOM")) || decide (message.operation = some (.lit "NEW_ROOM"))) &&
      decide (message.result = some (.lit "SUCCESS")) && decide (message.extra = some roomname)
    | _ => false

/-- A test: a turn does not make a connection ask to leave any room. -/
def remains (fd : Fd) (before : Pool) (turn : Turn) : Bool :=
  match turn with
  | .start index (some msg_in) => decide (msg_in.type ≠ .LEAVE_ROOM) ||
    before.sessions[index]?.all fun session => decide (session.client_fd ≠ fd)
  | _ => true

theorem confirmed_of_test {fd : Fd} {roomname : CString} {history : List (Pool × Turn)} {pool : Pool}
    (htest : Since.test (confirms fd roomname) (remains fd) history = true) : Confirmed fd roomname history pool := by
  refine Since.of_test (fun _ before turn hconfirms => ?_) (fun before turn hremains => ?_) (fun _ => trivial) htest
  · obtain ⟨after, hstep, hsends⟩ := (Option.any_eq_true _ _).mp hconfirms
    obtain ⟨effect, hmem, htells⟩ := List.any_eq_true.mp hsends
    split at htells
    · rename_i client_fd message
      simp only [Bool.and_eq_true, Bool.or_eq_true, decide_eq_true_eq] at htells
      obtain ⟨⟨⟨⟨rfl, htype⟩, hoperation⟩, hresult⟩, hextra⟩ := htells
      refine ⟨after, message, hstep, hmem, ?_, hextra⟩
      exact hoperation.imp (fun hjoin => ⟨htype, hjoin, hresult⟩) fun hnew => ⟨htype, hnew, hresult⟩
    · cases htells
  · rintro index session msg_in rfl hsession hfd ⟨htype, -⟩
    rw [remains, hsession, Option.all_some, htype, hfd] at hremains
    simp at hremains

/-- A test: the next action of a handler brings nobody into an empty room. -/
def seats_nobody (roomname : CString) (program : Handler Unit) : Bool :=
  match program with
  | .ret _ => true
  | .act action _ =>
    if named : 0 < strlen roomname ∧ strlen roomname ≤ ROOM_ROOMNAME_MAX_LENGTH then
      match action.run (.idle ((Deed.open_room roomname named).apply server_init) []) with
      | .ok _ after => (after.server.rooms.lookup roomname).all fun room => room.members.entries.isEmpty
      | .error _ _ => true
    else false

theorem not_seats_of_seats_nobody {roomname : CString} {program : Handler Unit}
    (htest : seats_nobody roomname program = true) : ¬ program.Next (Seats roomname) := by
  cases program with
  | ret value => exact id
  | act action next =>
    rintro ⟨user, hseats⟩
    dsimp only [seats_nobody] at htest
    split at htest
    · rename_i named
      obtain ⟨value, after, hrun, hmembers⟩ := hseats ((Deed.open_room roomname named).apply server_init) []
      have hopened : ((Deed.open_room roomname named).apply server_init).rooms.lookup roomname =
          some (room_new roomname named) := by rw [Deed.lookup_apply]; exact if_pos rfl
      obtain ⟨room, hroom, hadded⟩ := Option.map_eq_some_iff.mp (hmembers _ hopened)
      obtain ⟨member, hmember, -⟩ : (users_table_init.add user).Lists user.socket_fd user.username :=
        (UsersTable.named_init.lists_add user).mpr (Or.inr ⟨rfl, rfl, rfl⟩)
      rw [hrun] at htest
      simp only [hroom, Option.all_some, hadded, List.isEmpty_iff] at htest
      rw [show (room_new roomname named).members = users_table_init from rfl] at htest
      rw [htest] at hmember
      cases hmember
    · cases htest

/-- A test: after the next action of a handler a room is there. -/
def leaves_room (roomname : CString) (world : World) (program : Handler Unit) : Bool :=
  program.leads_to (fun after => (after.server.rooms.lookup roomname).isSome) (.idle world.server world.trace)

theorem not_drops_of_leaves_room {roomname : CString} {world : World} {program : Handler Unit}
    (htest : leaves_room roomname world program = true) : ¬ program.Next (Drops roomname) := by
  refine Program.not_next_of_leads_to htest fun action hdrops => ?_
  obtain ⟨value, after, hrun, hrooms⟩ := hdrops world.server world.trace
  exact ⟨value, after, hrun, by simp [hrooms]⟩

/-- A test for `RoomsStay`: a handler brings its client into a room only if the room
exists and no handler is about to remove it. -/
def rooms_stay (before : Pool) (turn : Turn) : Bool :=
  match turn with
  | .act index => (before.job index).all fun job => job.event.entered.all fun roomname =>
    seats_nobody roomname job.program || (before.world.server.rooms.lookup roomname).isSome &&
      before.sessions.all fun session => session.job.all fun running =>
        leaves_room roomname before.world running.program
  | _ => true

theorem roomsStay_of_rooms_stay {before : Pool} {turn : Turn} (htest : rooms_stay before turn = true) :
    RoomsStay before turn := by
  rintro index job roomname rfl hjob hentered hnext
  rw [rooms_stay, hjob, Option.all_some, hentered, Option.all_some, Bool.or_eq_true, Bool.and_eq_true] at htest
  obtain ⟨hroom, hstays⟩ := htest.resolve_left fun hnobody => not_seats_of_seats_nobody hnobody hnext
  exact ⟨hroom, fun other running _ hrunning => not_drops_of_leaves_room (Pool.job_tested hstays hrunning)⟩

/-- A test: no connection has been closed and no handler is in progress. -/
def at_rest (pool : Pool) : Bool :=
  (closed pool.world.trace).isEmpty && pool.sessions.all fun session => session.job.isNone

theorem rests_of_at_rest {pool : Pool} (htest : at_rest pool = true) :
    (∀ fd, Effect.close fd ∉ pool.world.trace) ∧ pool.Quiescent := by
  rw [at_rest, Bool.and_eq_true, List.isEmpty_iff] at htest
  constructor
  · intro fd hclosed
    have hmem := mem_closed.mpr hclosed
    rw [htest.1] at hmem
    cases hmem
  · exact fun session hmem => Option.isNone_iff_eq_none.mp (List.all_eq_true.mp htest.2 session hmem)

/-- The invited client joins while the only member leaves, who still meets the new
member in the room. -/
def change_of_members : List Turn :=
  open_house ++ [.start 1 (some (room_request .JOIN_ROOM)), .act 1, .start 0 (some (room_request .LEAVE_ROOM))] ++
    (List.replicate 8 [.act 1, .act 0]).flatten ++ List.replicate 3 (.act 0) ++ List.replicate 5 (.act 1)

/-- The condition holds in a run in which a client joins while another leaves. -/
theorem confirmed_members_stay_in_open_house :
    ∃ history pool, PoolRun reliable history pool ∧ Confirmed 5 (.lit "sala") history pool ∧
      ∃ username, pool.world.server.Member (.lit "sala") 5 username := by
  obtain ⟨history, pool, hrun, htest⟩ := exists_pool_run reliable change_of_members
    (fun history (pool : Pool) => at_rest pool && Since.test (confirms 5 (.lit "sala")) (remains 5) history &&
      history.all fun moment : Pool × Turn => rooms_stay moment.1 moment.2)
    (by decide +kernel)
  simp only [Bool.and_eq_true] at htest
  obtain ⟨⟨hrest, htold⟩, hstays⟩ := htest
  obtain ⟨hconnected, hquiet⟩ := rests_of_at_rest hrest
  have hconfirmed : Confirmed 5 (.lit "sala") history pool := confirmed_of_test htold
  exact ⟨history, pool, hrun, hconfirmed, confirmed_members_stay hrun hconnected hquiet
    (fun moment hmem => roomsStay_of_rooms_stay (List.all_eq_true.mp hstays moment hmem)) hconfirmed⟩

/-- The last member leaves while the invited client joins: the room is removed with
its new member. -/
theorem departure_removes_joined_room :
    ¬ ∀ (history : List (Pool × Turn)) (pool : Pool), PoolRun reliable history pool →
      (∀ fd, Effect.close fd ∉ pool.world.trace) → pool.Quiescent → ∀ (fd : Fd) (roomname : CString),
        Confirmed fd roomname history pool → ∃ username, pool.world.server.Member roomname fd username := by
  intro hclaim
  obtain ⟨history, pool, hrun, htest⟩ := exists_pool_run reliable
    (open_house ++ .start 0 (some (room_request .LEAVE_ROOM)) :: List.replicate 7 (.act 0) ++
      .start 1 (some (room_request .JOIN_ROOM)) :: List.replicate 14 (.act 1) ++ List.replicate 5 (.act 0))
    (fun history (pool : Pool) => at_rest pool && Since.test (confirms 5 (.lit "sala")) (remains 5) history &&
      (pool.world.server.rooms.lookup (.lit "sala")).isNone)
    (by decide +kernel)
  simp only [Bool.and_eq_true, Option.isNone_iff_eq_none] at htest
  obtain ⟨⟨hrest, htold⟩, hgone⟩ := htest
  obtain ⟨hconnected, hquiet⟩ := rests_of_at_rest hrest
  obtain ⟨username, room, hroom, -⟩ :=
    hclaim history pool hrun hconnected hquiet 5 (.lit "sala") (confirmed_of_test htold)
  rw [hgone] at hroom
  cases hroom

end Examples

end ojalvo
