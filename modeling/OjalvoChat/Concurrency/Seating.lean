import OjalvoChat.Concurrency.Rooms

namespace ojalvo

section Facts

/-- What a fact says about the rooms while nobody disconnects. Facts that come with
disconnections, or with rooms that are gone, do not occur. -/
def Fact.Seating (server : Server) (client_fd : Fd) (fact : Fact) : Prop :=
  match fact with
  | .failed _ | .departing _ | .evicting _ | .cleared _ | .lost _ => False
  | .self user => user.socket_fd = client_fd ∧ server.Registered client_fd user.username
  | .joined roomname => ∃ username, server.Member roomname client_fd username
  | .emptied roomname => ∀ fd username, ¬ server.Member roomname fd username
  | _ => True

/-- The tables while nobody disconnects: members are registered. -/
structure Server.Seated (server : Server) : Prop where
  users : server.users.Indexed
  named : server.RoomsNamed
  registered : ∀ roomname fd username, server.Member roomname fd username → server.Registered fd username

/-- A request to leave a room. -/
def Message.Leaves (message : Message) (roomname : CString) : Prop :=
  message.type = .LEAVE_ROOM ∧ message.roomname = some roomname

theorem Server.Seated.eq_of_registered {server : Server} (hserver : server.Seated) {first second : Fd}
    {username : CString} (hfirst : server.Registered first username) (hsecond : server.Registered second username) :
    first = second := by
  obtain ⟨user, huser, hname, rfl⟩ := hserver.users.lists_iff.mp hfirst
  obtain ⟨other, hother, hsame, rfl⟩ := hserver.users.lists_iff.mp hsecond
  rw [UsersTable.eq_of_username_eq huser hother (hname.trans hsame.symm)]

variable {server : Server} {client_fd fd : Fd} {event : Event} {facts later : List Fact} {program : Handler Unit}
  {deed : Deed} {roomname username : CString} {net : Net}

section Steps

variable (hstep : HandlerStep net client_fd event facts program server deed later) (hserver : server.Seated)
  (hseating : ∀ fact ∈ facts, fact.Seating server client_fd)
include hstep hserver hseating

/-- Nobody is unregistered. -/
theorem HandlerStep.stays_registered (hafter : (deed.apply server).users.Indexed)
    (hregistered : server.Registered fd username) : (deed.apply server).Registered fd username := by
  by_contra hgone
  obtain rfl := hstep.unregisters hserver.users hafter hregistered hgone
  exact hseating _ hstep.allowed.1

omit hserver in
/-- Whoever is seated is the own client. -/
theorem HandlerStep.seats_self {user : User} (hdeed : deed = .seat roomname user ∨ deed = .let_in roomname user) :
    user.socket_fd = client_fd ∧ server.Registered client_fd user.username ∧ program.Next (Seats roomname) ∧
      event.entered = some roomname := by
  have hallowed := hstep.allowed
  rcases hdeed with rfl | rfl
  · exact ⟨(hseating _ hallowed.1).1, (hseating _ hallowed.1).2, hallowed.2⟩
  · exact ⟨(hseating _ hallowed.1).1, (hseating _ hallowed.1).2, hallowed.2⟩

/-- A member stays one, unless it is the own client and leaves. -/
theorem HandlerStep.stays_member (hmember : server.Member roomname fd username)
    (hstays : fd = client_fd → ¬ event.message.Leaves roomname) : (deed.apply server).Member roomname fd username := by
  have hallowed := hstep.allowed
  rcases hserver.named.member_after deed hmember with hafter | rfl | rfl | rfl | ⟨named, rfl⟩
  · exact hafter
  · exact absurd hmember (hseating _ hallowed fd username)
  · obtain ⟨user, htarget | htarget, -⟩ := hallowed
    · exact (hseating _ htarget).elim
    · exact (hseating _ htarget).elim
  · obtain ⟨htype, hroom, user, hself, rfl⟩ := hallowed
    have hown := (hseating _ hself).2
    have hfd : fd = client_fd := hserver.eq_of_registered (hserver.registered _ _ _ hmember) hown
    exact absurd ⟨htype, hroom⟩ (hstays hfd)
  · obtain ⟨room, hroom, -⟩ := hmember
    rw [show server.rooms.lookup roomname = none from hallowed] at hroom
    cases hroom

theorem HandlerStep.seated (hafter : (deed.apply server).users.Indexed) : (deed.apply server).Seated where
  users := hafter
  named := hserver.named.apply deed
  registered room fd username hmember := by
    rcases hserver.named.member_before hmember with hold | ⟨user, hdeed, rfl, rfl⟩
    · exact hstep.stays_registered hserver hseating hafter (hserver.registered room fd username hold)
    · obtain ⟨hfd, hregistered, -⟩ := hstep.seats_self hseating hdeed
      rw [hfd]
      exact hstep.stays_registered hserver hseating hafter hregistered

/-- The facts of other handlers outlive the step. -/
theorem HandlerStep.seating_other (hafter : (deed.apply server).users.Indexed) {other_fd : Fd}
    (hother : other_fd ≠ client_fd) {fact : Fact} (hfact : fact.Seating server other_fd)
    (hfree : ∀ roomname, fact = .emptied roomname → program.Next (Seats roomname) → event.entered ≠ some roomname) :
    fact.Seating (deed.apply server) other_fd := by
  cases fact with
  | self user => exact ⟨hfact.1, hstep.stays_registered hserver hseating hafter hfact.2⟩
  | joined room =>
    obtain ⟨username, hmember⟩ := hfact
    exact ⟨username, hstep.stays_member hserver hseating hmember fun hsame => absurd hsame hother⟩
  | emptied room =>
    intro fd username hmember
    rcases hserver.named.member_before hmember with hold | ⟨user, hdeed, -⟩
    · exact hfact fd username hold
    · obtain ⟨-, -, hnext, hentered⟩ := hstep.seats_self hseating hdeed
      exact hfree room rfl hnext hentered
  | failed _ => exact hfact
  | departing _ => exact hfact
  | evicting _ => exact hfact
  | cleared _ => exact hfact
  | lost _ => exact hfact
  | _ => trivial

end Steps

/-- The facts with which a handler goes on, when sends succeed, it is not about to
disconnect its client, and the room in which it seats its client exists. -/
theorem HandlerStep.seating (hstep : HandlerStep reliable client_fd event facts program server deed later)
    (hserver : server.Seated) (hseating : ∀ fact ∈ facts, fact.Seating server client_fd)
    (hafter : (deed.apply server).users.Indexed) (hstays : ∀ user, .departing user ∉ later)
    (hrooms : ∀ roomname, event.entered = some roomname → program.Next (Seats roomname) →
      (server.rooms.lookup roomname).isSome) :
    ∀ fact ∈ later, fact.Seating (deed.apply server) client_fd := by
  intro fact hfact
  have hallowed := hstep.allowed
  rcases hstep.kept fact hfact with ⟨hold, hsurvives⟩ | hbrought
  · have hheld := hseating fact hold
    cases fact with
    | self user => exact ⟨hheld.1, hstep.stays_registered hserver hseating hafter hheld.2⟩
    | joined room =>
      obtain ⟨effects, rfl⟩ := hsurvives
      exact hheld
    | emptied room =>
      obtain ⟨effects, rfl⟩ := hsurvives
      exact hheld
    | failed _ => exact hheld
    | departing _ => exact hheld
    | evicting _ => exact hheld
    | cleared _ => exact hheld
    | lost _ => exact hheld
    | _ => trivial
  cases fact with
  | failed fd =>
    obtain ⟨message, hmem⟩ := hbrought
    rcases hstep.said _ hmem with ⟨_, heq⟩ | ⟨_, _, trace, heq, -⟩ <;> cases heq
  | departing user => exact absurd hfact (hstays user)
  | evicting user =>
    obtain ⟨-, fd, hfailed, -⟩ := hbrought
    exact hseating _ hfailed
  | cleared username =>
    obtain rfl := hbrought
    obtain ⟨user, htarget | htarget, -⟩ := hallowed
    · exact hseating _ htarget
    · exact hseating _ htarget
  | self user =>
    obtain ⟨rfl, hfound⟩ := hbrought
    obtain ⟨huser, hfd⟩ := hserver.users.find_by_client_fd_iff.mp hfound
    exact ⟨hfd, hserver.users.lists_iff.mpr ⟨user, huser, rfl, hfd⟩⟩
  | joined room =>
    obtain ⟨hroom, user, hdeed⟩ := hbrought
    obtain ⟨hfd, hregistered, -⟩ := hstep.seats_self hseating hdeed
    refine ⟨user.username, hfd ▸ hserver.named.member_seated hdeed hroom fun fd hmember => ?_⟩
    rw [hfd]
    exact hserver.eq_of_registered (hserver.registered _ _ _ hmember) hregistered
  | lost room =>
    obtain ⟨hnone, hnext, hentered⟩ := hbrought
    have hexists := hrooms room hentered hnext
    rw [hnone] at hexists
    cases hexists
  | emptied room =>
    obtain ⟨username, rfl, hnobody⟩ := hbrought
    rintro fd name ⟨found, hfound, user, huser, -⟩
    rw [List.eq_nil_of_length_eq_zero (hnobody found hfound)] at huser
    cases huser
  | _ => trivial

end Facts

section Runs

variable {net : Net} {history : List (Pool × Turn)} {before after : Pool} {turn : Turn} {known later : Knowledge}

/-- A connection has been closed, or a handler will close one. -/
def Pool.Disturbed (pool : Pool) : Prop :=
  (∃ fd, Effect.close fd ∈ pool.world.trace) ∨
    ∃ index job fd, pool.job index = some job ∧ job.program.Must (Closing fd)

theorem Moves.disturbed (hmoves : Moves net before known turn after later) (hdisturbed : before.Disturbed) :
    after.Disturbed := by
  rcases hdisturbed with ⟨fd, hclosed⟩ | ⟨index, job, fd, hjob, hmust⟩
  · exact Or.inl ⟨fd, hmoves.trace.subset hclosed⟩
  obtain ⟨session, hsession, hrunning⟩ := Option.bind_eq_some_iff.mp hjob
  have hset : ∀ {world : World} {moved : Nat} {found : Session} {changed : Option Job},
      before.sessions[moved]? = some found → index ≠ moved →
      (before.set_job world moved found.client_fd changed).Disturbed := by
    intro world moved found changed hfound hother
    refine Or.inr ⟨index, job, fd, ?_, hmust⟩
    rw [Pool.job_set_job hfound, if_neg hother, hjob]
  cases hmoves with
  | accept client_fd hclosed =>
    refine Or.inr ⟨index, job, fd, ?_, hmust⟩
    have hbound := (List.getElem?_eq_some_iff.mp hsession).1
    simp only [Pool.job, List.getElem?_append_left hbound, hsession, Option.bind_eq_bind, Option.bind_some, hrunning]
  | start line hfound hidle =>
    refine hset hfound ?_
    rintro rfl
    rw [hsession] at hfound
    cases hfound
    rw [hrunning] at hidle
    cases hidle
  | @finish moved found finished hfound hfinished hprogram =>
    refine hset hfound ?_
    rintro rfl
    rw [Pool.job_of_session hfound, hfinished] at hjob
    cases hjob
    rw [hprogram] at hmust
    exact hmust
  | @deed moved found acting A action next value deed facts hfound hacting hprogram hrun hstep =>
    by_cases hsame : index = moved
    · subst hsame
      rw [Pool.job_of_session hfound, hacting] at hjob
      cases hjob
      rw [hprogram] at hmust
      rcases hmust with hcloses | hlater
      · refine Or.inl ⟨fd, ?_⟩
        change Effect.close fd ∈ (Deed.perform deed before.world).trace
        rw [hcloses _ _ _ hrun]
        exact List.mem_append_right _ List.mem_cons_self
      · exact Or.inr ⟨index, _, fd, by rw [Pool.job_set_job hfound, if_pos rfl], hlater value⟩
    · exact hset hfound hsame
  | @jam moved found stuck A action next mutex effects hfound hstuck hprogram hrun heffects =>
    by_cases hsame : index = moved
    · subst hsame
      rw [Pool.job_of_session hfound, hstuck] at hjob
      cases hjob
      refine Or.inr ⟨index, { job with effects := job.effects ++ effects }, fd, ?_, hmust⟩
      rw [Pool.job_set_job hfound, if_pos rfl]
    · exact hset hfound hsame

/-- Whoever seats its client finds the room, and no other handler is about to
remove it. -/
def RoomsStay (before : Pool) (turn : Turn) : Prop :=
  ∀ index job roomname, turn = .act index → before.job index = some job → job.event.entered = some roomname →
    job.program.Next (Seats roomname) → (before.world.server.rooms.lookup roomname).isSome ∧
      ∀ other running, other ≠ index → before.job other = some running → ¬ running.program.Next (Drops roomname)

/-- The pool while nobody disconnects. -/
structure Pool.Orderly (pool : Pool) (known : Knowledge) : Prop where
  informed : pool.Informed known
  seated : pool.world.server.Seated
  distinct : pool.client_fds.Nodup
  opened : ∀ fd ∈ pool.client_fds, is_open pool.world.trace fd = true
  seating : ∀ index session, pool.sessions[index]? = some session → ∀ fact ∈ known index,
    fact.Seating pool.world.server session.client_fd

theorem orderly_init : pool_init.Orderly fun _ => [] where
  informed := ⟨UsersTable.indexed_init, fun index session _ fact hfact => by cases hfact⟩
  seated := ⟨UsersTable.indexed_init, fun roomname room hroom => by simp [pool_init, server_init] at hroom,
    fun roomname fd username hmember => absurd hmember not_seats_init⟩
  distinct := List.nodup_nil
  opened fd hmem := by cases hmem
  seating index session hsession := by simp [pool_init] at hsession

/-- Descriptors that are all open are handed out once. -/
theorem Moves.distinct (hmoves : Moves net before known turn after later) (hdistinct : before.client_fds.Nodup)
    (hopened : ∀ fd ∈ before.client_fds, is_open before.world.trace fd = true)
    (hconnected : ∀ fd, Effect.close fd ∉ after.world.trace) :
    after.client_fds.Nodup ∧ ∀ fd ∈ after.client_fds, is_open after.world.trace fd = true := by
  have hkept : ∀ fd ∈ before.client_fds, is_open after.world.trace fd = true := by
    intro fd hmem
    obtain ⟨effects, heffects⟩ := hmoves.trace
    rw [← heffects]
    exact is_open_append (hopened fd hmem) fun hclosed => hconnected fd (heffects ▸ List.mem_append_right _ hclosed)
  cases hmoves with
  | accept client_fd hclosed =>
    have hfds : ∀ fd, fd ∈ before.client_fds ++ [client_fd] →
        is_open (before.world.trace ++ [.accept client_fd]) fd := by
      intro fd hmem
      rcases List.mem_append.mp hmem with hold | hnew
      · exact hkept fd hold
      · rw [List.mem_singleton.mp hnew, is_open_accept]
        simp
    rw [Pool.client_fds, List.map_append]
    refine ⟨List.nodup_append.mpr ⟨hdistinct, List.nodup_singleton _, ?_⟩, hfds⟩
    rintro fd hmem _ hnew rfl
    obtain rfl := List.mem_singleton.mp hnew
    rw [hopened _ hmem] at hclosed
    cases hclosed
  | start line hfound hidle => rw [Pool.client_fds_set_job hfound]; exact ⟨hdistinct, hkept⟩
  | finish hfound hjob hprogram => rw [Pool.client_fds_set_job hfound]; exact ⟨hdistinct, hkept⟩
  | deed hfound hjob hprogram hrun hstep => rw [Pool.client_fds_set_job hfound]; exact ⟨hdistinct, hkept⟩
  | jam hfound hjob hprogram hrun heffects => rw [Pool.client_fds_set_job hfound]; exact ⟨hdistinct, hkept⟩

/-- A turn keeps the pool orderly. -/
theorem Moves.orderly (hmoves : Moves reliable before known turn after later) (htracks : before.Tracks reliable known)
    (hlater : after.Tracks reliable later) (hundisturbed : ¬ after.Disturbed) (hstay : RoomsStay before turn)
    (horderly : before.Orderly known) : after.Orderly later := by
  obtain ⟨hdistinct, hopened⟩ := hmoves.distinct horderly.distinct horderly.opened
    fun fd hclosed => hundisturbed (Or.inl ⟨fd, hclosed⟩)
  have hinformed := hmoves.informed htracks hdistinct horderly.informed
  have hdeparting : ∀ index user, .departing user ∉ later index := by
    intro index user hfact
    obtain ⟨session, job, hsession, hjob, -, hcloses⟩ := hlater.pledged hfact
    exact hundisturbed (Or.inr ⟨index, job, session.client_fd, by rw [Pool.job_of_session hsession, hjob], hcloses⟩)
  rcases hmoves.deed_or_quiet with ⟨hserver, hquiet⟩ |
    ⟨index, session, job, deed, facts, rfl, hsession, hjob, hworld, hown, rfl⟩
  · refine ⟨hinformed, hserver ▸ horderly.seated, hdistinct, hopened, fun index session hsession fact hfact => ?_⟩
    obtain ⟨old, hold, hfd⟩ := hmoves.session_of_fact htracks hsession hfact
    rw [hserver, ← hfd]
    exact horderly.seating index old hold fact (hquiet index hfact)
  have hserver : after.world.server = deed.apply before.world.server := by rw [hworld]; rfl
  have hseating := horderly.seating index session hsession
  have hafter : (deed.apply before.world.server).users.Indexed := hserver ▸ hinformed.1
  have hrunning : before.job index = some job := by rw [Pool.job_of_session hsession, hjob]
  refine ⟨hinformed, hserver ▸ hown.seated horderly.seated hseating hafter, hdistinct, hopened,
    fun other found hfound fact hfact => ?_⟩
  obtain ⟨old, hold, hfd⟩ := hmoves.session_of_fact htracks hfound hfact
  rw [hserver, ← hfd]
  by_cases hsame : other = index
  · subst hsame
    have hstays := hdeparting other
    rw [Function.update_self] at hfact hstays
    obtain rfl := Option.some.inj (hold.symm.trans hsession)
    exact hown.seating horderly.seated hseating hafter hstays
      (fun roomname hentered hnext => (hstay other job roomname rfl hrunning hentered hnext).1) fact hfact
  · rw [Function.update_of_ne hsame] at hfact
    refine hown.seating_other horderly.seated hseating hafter (fun hsamefd => hsame ?_)
      (horderly.seating other old hold fact hfact) ?_
    · exact index_eq_of_client_fd_eq horderly.distinct hold hsession hsamefd
    · rintro roomname rfl hnext hentered
      obtain ⟨waiting, running, hwaiting, hbusy, hdrops⟩ := htracks.pledged hfact
      refine (hstay index job roomname rfl hrunning hentered hnext).2 other running hsame ?_ hdrops
      rw [Pool.job_of_session hwaiting, hbusy]

end Runs

end ojalvo
