import OjalvoChat.Concurrency.Secrets
import OjalvoChat.MessageJson.Fields
import OjalvoChat.ServerSend

namespace ojalvo

/-- The same turn, or one in which a request carries another secret text. -/
inductive Secret.Rewrites (secret : Secret) (alike : CString → CString → Prop) : Turn → Turn → Prop where
  | same (turn : Turn) : Rewrites secret alike turn turn
  | text (index : Nat) {msg_in : Message} {text : CString} (other : CString) (hcovers : secret.Covers msg_in)
    (htext : msg_in.text = some text) (halike : alike text other) :
    Rewrites secret alike (.start index (some msg_in)) (.start index (some { msg_in with text := some other }))

section Lists

variable {A B : Type*} {R : A → B → Prop} {xs : List A} {ys : List B}

theorem forall₂_set (hall : List.Forall₂ R xs ys) {x : A} {y : B} (hnew : R x y) (index : Nat) :
    List.Forall₂ R (xs.set index x) (ys.set index y) := by
  induction hall generalizing index with
  | nil => exact .nil
  | cons hhead hrest ih =>
    cases index with
    | zero => exact .cons hnew hrest
    | succ index => exact .cons hhead (ih index)

theorem forall₂_getElem? (hall : List.Forall₂ R xs ys) {index : Nat} {x : A} (hx : xs[index]? = some x) :
    ∃ y, ys[index]? = some y ∧ R x y := by
  induction hall generalizing index with
  | nil => cases hx
  | cons hhead hrest ih =>
    cases index with
    | zero =>
      cases hx
      exact ⟨_, rfl, hhead⟩
    | succ index => exact ih hx

end Lists

section Handlers

variable {net : Net} {secret : Secret} {veil : Veil} {client_fd : Fd} {msg_in : Message} {text : CString}

theorem pairs_serve (hblind : net.Blind veil.alike) (line : Option Message) :
    Program.Pairs (secret.Kept veil) (World.Veiled veil) (serve net (.of_line client_fd line))
      (serve net (.of_line client_fd line)) := by
  have hbuilt : Handler.Built net (fun _ => True) (fun _ => True) (serve net (.of_line client_fd line)) :=
    built_serve grants_all (fun _ _ => given_all _) fun _ _ => says_all _
  exact hbuilt.pairs hblind fun world hkept => hkept.proper

/-- Requests with different secret texts are handled alike. -/
theorem pairs_serve_text (hblind : net.Blind veil.alike) (hcovers : secret.Covers msg_in)
    (htext : msg_in.text = some text)
    (other : CString) (halike : veil.alike text other) :
    Program.Pairs (secret.Kept veil) (World.Veiled veil) (serve net (.request client_fd msg_in))
      (serve net (.request client_fd { msg_in with text := some other })) := by
  have hproper (world : World) (hkept : secret.Kept veil world) : world.Proper := hkept.proper
  refine Program.Pairs.bind ?_ fun _ => .ret ()
  cases secret with
  | room roomname =>
    obtain ⟨htype, hroomname⟩ := hcovers
    unfold message_handler_process
    simp only [htype, reduceCtorEq, if_false]
    refine pairs_untraced (untraced_users_table_query _ _) fun identified => ?_
    cases identified with
    | false => exact Handler.Built.pairs (built_not_identified grants_all client_fd) hblind hproper
    | true =>
      refine pairs_process_room_text hblind hproper (fun world hkept room hroom user huser => ?_) hroomname htext halike
      exact hkept.readers _ ⟨room, user, hroom, huser, rfl⟩
  | user username =>
    obtain ⟨htype, husername⟩ := hcovers
    unfold message_handler_process
    simp only [htype, reduceCtorEq, if_false]
    refine pairs_untraced (untraced_users_table_query _ _) fun identified => ?_
    cases identified with
    | false => exact Handler.Built.pairs (built_not_identified grants_all client_fd) hblind hproper
    | true =>
      refine pairs_process_text hblind hproper (fun world hkept user huser => ?_) husername htext halike
      exact hkept.readers _ ⟨user, huser, rfl⟩

end Handlers

/-- Two threads that differ at most in secret texts. -/
inductive Session.Veiled (secret : Secret) (veil : Veil) : Session → Session → Prop where
  | idle (client_fd : Fd) : Session.Veiled secret veil ⟨client_fd, none⟩ ⟨client_fd, none⟩
  | busy (client_fd : Fd) {job twin : Job}
    (hpairs : Program.Pairs (secret.Kept veil) (World.Veiled veil) job.program twin.program) :
    Session.Veiled secret veil ⟨client_fd, some job⟩ ⟨client_fd, some twin⟩

structure Pool.Veiled (secret : Secret) (veil : Veil) (pool twin : Pool) : Prop where
  world : pool.world.Veiled veil twin.world
  sessions : List.Forall₂ (Session.Veiled secret veil) pool.sessions twin.sessions

section Threads

variable {net : Net} {secret : Secret} {veil : Veil} {pool twin after : Pool} {turn other : Turn}

/-- A handler and its twin take their turns together. -/
theorem Job.Steps.veiled {world later world' : World} {job shadow : Job} {changed : Option Job}
    (hsteps : job.Steps world later changed)
    (hpairs : Program.Pairs (secret.Kept veil) (World.Veiled veil) job.program shadow.program)
    (hkept : secret.Kept veil world) (hworld : world.Veiled veil world') (client_fd : Fd) :
    ∃ later' changed', shadow.step world' = some (later', changed') ∧ later.Veiled veil later' ∧
      Session.Veiled secret veil ⟨client_fd, changed⟩ ⟨client_fd, changed'⟩ := by
  obtain ⟨event, effects, program⟩ := shadow
  cases hsteps with
  | finish hret =>
    rw [hret] at hpairs
    cases hpairs with
    | ret value => exact ⟨_, _, rfl, hworld, .idle client_fd⟩
  | act hact hrun =>
    rw [hact] at hpairs
    cases hpairs with
    | act V hbody hnext =>
      have hnow := hbody world world' hkept hworld
      rw [hrun] at hnow
      simp only [Job.step]
      generalize EStateM.run _ world' = outcome at hnow ⊢
      cases hnow with
      | ok hvalue hafter => exact ⟨_, _, rfl, hafter, .busy client_fd (hnext _ _ hvalue)⟩
  | wait hact hrun =>
    have hstuck := hact ▸ hpairs
    cases hstuck with
    | act V hbody hnext =>
      have hnow := hbody world world' hkept hworld
      rw [hrun] at hnow
      simp only [Job.step]
      generalize EStateM.run _ world' = outcome at hnow ⊢
      cases hnow with
      | error hstopped => exact ⟨_, _, rfl, hstopped, .busy client_fd hpairs⟩

/-- A line that begins, and its twin. -/
theorem PoolStep.veiled_start {index : Nat} {line line' : Option Message}
    (hstep : PoolStep net pool (.start index line) after)
    (hveiled : pool.Veiled secret veil twin)
    (hserve : ∀ client_fd, Program.Pairs (secret.Kept veil) (World.Veiled veil)
      (serve net (.of_line client_fd line)) (serve net (.of_line client_fd line'))) :
    ∃ after', PoolStep net twin (.start index line') after' ∧ after.Veiled secret veil after' := by
  obtain ⟨session, hsession, hidle, rfl⟩ := hstep.begun
  obtain ⟨shadow, hshadow, htwin⟩ := forall₂_getElem? hveiled.sessions hsession
  cases htwin with
  | busy client_fd hpairs => cases hidle
  | idle client_fd =>
    have htaken : PoolStep net twin (.start index line') (twin.set_job twin.world index client_fd (some {
        event := .of_line client_fd line'
        effects := []
        program := serve net (.of_line client_fd line') })) := by
      simp [PoolStep, pool_step, hshadow]
    refine ⟨_, htaken, hveiled.world, forall₂_set hveiled.sessions ?_ index⟩
    exact .busy client_fd (hserve client_fd)

theorem PoolStep.veiled (hblind : net.Blind veil.alike) (hstep : PoolStep net pool turn after)
    (hrewrites : secret.Rewrites veil.alike turn other)
    (hkept : secret.Kept veil pool.world) (hveiled : pool.Veiled secret veil twin) :
    ∃ after', PoolStep net twin other after' ∧ after.Veiled secret veil after' := by
  cases hrewrites with
  | text index other hcovers htext halike =>
    exact hstep.veiled_start hveiled fun _ => pairs_serve_text hblind hcovers htext other halike
  | same turn =>
    cases turn with
    | accept client_fd =>
      obtain ⟨⟨server, held, trace, alloc⟩, sessions⟩ := pool
      obtain ⟨world', sessions'⟩ := twin
      obtain ⟨⟨htrace⟩, hsessions⟩ := hveiled
      unfold PoolStep pool_step at hstep ⊢
      dsimp only [World.with_trace] at hstep ⊢
      rw [is_open_veiled htrace]
      by_cases hopen : is_open trace client_fd = true
      · rw [if_pos hopen] at hstep
        cases hstep
      · rw [if_neg hopen] at hstep ⊢
        cases hstep
        refine ⟨_, rfl, ?_, ?_⟩
        · exact .intro (List.rel_append htrace (.cons (.same _) .nil))
        · exact List.rel_append hsessions (.cons (.idle client_fd) .nil)
    | start index line => exact hstep.veiled_start hveiled fun _ => pairs_serve hblind line
    | act index =>
      obtain ⟨session, job, world, changed, hsession, hjob, hsteps, rfl⟩ := hstep.job_steps
      obtain ⟨shadow, hshadow, htwin⟩ := forall₂_getElem? hveiled.sessions hsession
      cases htwin with
      | idle client_fd => cases hjob
      | busy client_fd hpairs =>
        cases hjob
        obtain ⟨later', changed', htaken, hlater, hchanged⟩ := hsteps.veiled hpairs hkept hveiled.world client_fd
        exact ⟨_, poolStep_of_step hshadow rfl htaken, hlater, forall₂_set hveiled.sessions hchanged index⟩

/-- Every run has a twin with other secret texts. -/
theorem exists_veiled_run (hblind : net.Blind veil.alike) {history : List (Pool × Turn)}
    (hrun : PoolRun net history pool)
    (hreaders : ∀ moment ∈ history, ∀ fd, secret.SharedWith moment.1.world.server fd → veil.readers fd)
    {turns : List Turn}
    (hturns : List.Forall₂ (secret.Rewrites veil.alike) (history.map Prod.snd) turns) :
    ∃ history' twin, PoolRun net history' twin ∧ history'.map Prod.snd = turns ∧
      List.Forall₂ (fun moment moment' => moment.1.Veiled secret veil moment'.1) history history' ∧
      pool.Veiled secret veil twin := by
  induction hrun generalizing turns with
  | start =>
    cases hturns
    exact ⟨[], pool_init, .start, rfl, .nil, .refl _, .nil⟩
  | @step history before after turn hearlier hstep ih =>
    cases hturns with
    | @cons _ other _ rest hnow hrest =>
      obtain ⟨hnow', hpast⟩ := List.forall_mem_cons.mp hreaders
      obtain ⟨history', twin, hrun', rfl, hmoments, hveiled⟩ := ih hpast hrest
      obtain ⟨known, htracks⟩ := pool_tracks hearlier
      obtain ⟨after', hstep', hlater⟩ := hstep.veiled hblind hnow ⟨htracks.proper, hnow'⟩ hveiled
      exact ⟨(twin, other) :: history', after', hrun'.step hstep', rfl, .cons hveiled hmoments, hlater⟩

end Threads

/-- A run that another run is like, with the same tables at every moment, except
that other texts reach those who share the secret. -/
structure Secret.Unnoticed (secret : Secret) (net : Net) (history : List (Pool × Turn)) (pool : Pool)
    (history' : List (Pool × Turn)) (twin : Pool) : Prop where
  run : PoolRun net history' twin
  servers : (history'.map fun moment => moment.1.world.server) = history.map fun moment => moment.1.world.server
  server : twin.world.server = pool.world.server
  seen : ∀ fd, (∀ moment ∈ history, ¬ secret.SharedWith moment.1.world.server fd) →
    (twin.world.trace.filter fun effect => effect.fd = fd) = pool.world.trace.filter fun effect => effect.fd = fd

/-- Texts stay among those they are for: if some texts to a room (or to a user) are
exchanged for others, alike for the network, every interleaving goes on as before,
with the same tables at every moment, and a descriptor that never belonged to a member
of the room (or to that user) is sent the same. -/
theorem secrets_are_kept {net : Net} {alike : CString → CString → Prop} (hblind : net.Blind alike) (secret : Secret)
    {history : List (Pool × Turn)} {pool : Pool} (hrun : PoolRun net history pool) {turns : List Turn}
    (hturns : List.Forall₂ (secret.Rewrites alike) (history.map Prod.snd) turns) :
    ∃ history' twin, history'.map Prod.snd = turns ∧ secret.Unnoticed net history pool history' twin := by
  let veil : Veil := ⟨alike, fun fd => ∃ moment ∈ history, secret.SharedWith moment.1.world.server fd⟩
  have hreaders : ∀ moment ∈ history, ∀ fd, secret.SharedWith moment.1.world.server fd → veil.readers fd :=
    fun moment hmem fd hshared => ⟨moment, hmem, hshared⟩
  obtain ⟨history', twin, hrun', hturns', hmoments, hveiled⟩ := exists_veiled_run hblind hrun hreaders hturns
  have hservers : List.Forall₂ Eq (history'.map fun moment => moment.1.world.server)
      (history.map fun moment => moment.1.world.server) :=
    List.forall₂_map_left_iff.mpr (List.forall₂_map_right_iff.mpr
      (hmoments.flip.imp fun moment' moment hmoment => hmoment.world.server))
  rw [List.forall₂_eq_eq_eq] at hservers
  refine ⟨history', twin, hturns', hrun', hservers, hveiled.world.server, fun fd hnever => ?_⟩
  refine filter_veiled hveiled.world.traces ?_
  rintro ⟨moment, hmem, hshared⟩
  exact hnever moment hmem hshared

section Sockets

theorem length_print_fields_exchange (first last : List (CString × CJson)) (name : CString) {value other : CJson}
    (hlength : (cJSON_PrintUnformatted value).length = (cJSON_PrintUnformatted other).length) :
    (print_fields (first ++ (name, value) :: last)).length =
      (print_fields (first ++ (name, other) :: last)).length := by
  induction first with
  | nil => cases last <;> simp [print_fields, hlength]
  | cons field rest ih =>
    cases rest with
    | nil =>
      rw [List.nil_append, List.nil_append] at ih
      simp [print_fields, ih]
    | cons next rest =>
      rw [List.cons_append, List.cons_append] at ih
      simp [print_fields, ih]

/-- Texts of one length on the wire leave the whole message as long as it is. -/
theorem length_message_object_exchange (message : Message) {text other : CString} (htext : message.text = some text)
    (hlength : escaped_length text = escaped_length other) :
    (cJSON_PrintUnformatted (message_object { message with text := some other })).length =
      (cJSON_PrintUnformatted (message_object message)).length := by
  have hprinted : (cJSON_PrintUnformatted (.string other)).length = (cJSON_PrintUnformatted (.string text)).length := by
    rw [cJSON_PrintUnformatted, cJSON_PrintUnformatted, length_print_string, length_print_string, hlength]
  let first : List (CString × Option CJson) := (message_fields message).take 6
  let last : List (CString × Option CJson) := [(.lit "roomname", message.roomname.map .string),
    (.lit "users", message.users), (.lit "usernames", usernames_item message.usernames)]
  have hfields (carried : CString) : message_object { message with text := some carried } =
      object_of (first ++ (.lit "text", some (.string carried)) :: last) := message_object_eq _
  have hmessage : message = { message with text := some text } := by rw [← htext]
  rw [hfields other, hmessage, hfields text]
  simp only [object_of, List.filterMap_append, List.filterMap_cons, Option.map_some, cJSON_PrintUnformatted,
    List.length_append, List.length_cons, length_print_fields_exchange _ _ _ hprinted]

/-- Sockets that take everything do not tell texts of one length apart. -/
theorem blind_sockets : sockets.Blind fun text other => escaped_length text = escaped_length other := by
  intro trace other fd message text htrace htext
  have hsend (response response' : List UInt8) : send other fd response = send trace fd response' :=
    is_open_veiled htrace fd
  generalize hcarried : message.text = carried at htext
  cases htext with
  | same _ =>
    rw [← hcarried]
    unfold sockets
    cases message_to_json message SERVER_BUFFER_SIZE with
    | none => rfl
    | some response => exact hsend _ _
  | other _ halike =>
    have hlength := length_message_object_exchange message hcarried halike
    unfold sockets message_to_json
    dsimp only
    rw [hlength]
    split_ifs
    · rfl
    · exact hsend _ _

end Sockets

/-- Three clients identify; one of them opens a room, and another one joins it. -/
def club : List Turn := [
  .accept 4, .accept 5, .accept 6,
  .start 0 (some { message_init with type := .IDENTIFY, username := some (.lit "ana") }),
  .start 1 (some { message_init with type := .IDENTIFY, username := some (.lit "luis") }),
  .start 2 (some { message_init with type := .IDENTIFY, username := some (.lit "eva") })] ++
  (List.replicate 12 [.act 0, .act 1, .act 2]).flatten ++
  .start 0 (some { message_init with type := .NEW_ROOM, roomname := some (.lit "club") }) ::
    List.replicate 11 (.act 0) ++
  .start 0 (some { message_init with
    type := .INVITE, roomname := some (.lit "club"), usernames := some [.lit "luis"] }) :: List.replicate 13 (.act 0) ++
  .start 1 (some { message_init with type := .JOIN_ROOM, roomname := some (.lit "club") }) :: List.replicate 14 (.act 1)

/-- A member writes to the room while the third client asks who is there. -/
def club_talk (text : CString) : List Turn :=
  club ++ [
    .start 0 (some { message_init with type := .ROOM_TEXT, roomname := some (.lit "club"), text := some text }),
    .start 2 (some { message_init with type := .USERS })] ++
  (List.replicate 4 [.act 0, .act 2]).flatten ++ List.replicate 7 (.act 0)

theorem secrets_are_kept_in_club : ∃ history pool, PoolRun sockets history pool ∧
    ((received 5 pool.world.trace).map Message.text).getLast? = some (some (.lit "hola")) ∧
    ∃ history' twin, history'.map Prod.snd = (club_talk (.lit "cena")).reverse ∧
      (Secret.room (.lit "club")).Unnoticed sockets history pool history' twin := by
  have htest : (Run.follow (pool_step sockets) (club_talk (.lit "hola")) [] pool_init).any (fun run =>
      ((received 5 run.2.world.trace).map Message.text).getLast? = some (some (.lit "hola"))) =
      true := by decide +kernel
  obtain ⟨⟨history, pool⟩, hfollow, hheard⟩ := (Option.any_eq_true _ _).mp htest
  obtain ⟨hrun, hturns⟩ := Run.run_of_follow (fun _ _ _ => id) .start hfollow
  have hsame (turns : List Turn) : List.Forall₂ ((Secret.room (.lit "club")).Rewrites fun text other =>
      escaped_length text = escaped_length other) turns turns :=
    List.forall₂_same.mpr fun turn _ => .same turn
  have hcena : escaped_length (.lit "hola") = escaped_length (.lit "cena") := by decide +kernel
  refine ⟨history, pool, hrun, of_decide_eq_true hheard, secrets_are_kept blind_sockets _ hrun ?_⟩
  rw [hturns, List.map_nil, List.append_nil, List.forall₂_reverse_iff]
  refine List.rel_append (List.rel_append (List.rel_append (hsame club) (.cons ?_ (hsame _))) (hsame _)) (hsame _)
  exact .text 0 (.lit "cena") ⟨rfl, rfl⟩ rfl hcena

end ojalvo
