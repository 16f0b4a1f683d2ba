import OjalvoChat.Concurrency.Departures

namespace ojalvo

section Replies

variable {net : Net} {client_fd : Fd} {event : Event} {facts : List Fact}

/-- Facts that ask nothing of the remaining program. -/
def Free (client_fd : Fd) (facts : List Fact) : Prop := ∀ fact ∈ facts, ∀ program, fact.Pledge client_fd program

theorem free_nil : Free client_fd [] := List.forall_mem_nil _

theorem free_self (user : User) : Free client_fd [.self user] := List.forall_mem_singleton.mpr fun _ => trivial

/-- A handler may end when it has nothing left to do. -/
theorem keeps_done (hfree : Free client_fd facts) : Keeps net client_fd event facts (pure ()) :=
  fun fact hmem => hfree fact hmem _

/-- Copying a text changes nothing of what a handler relies on. -/
theorem keeps_strdup {text : Option CString} {next : Option CString → Handler Unit}
    (hpledge : ∀ fact ∈ facts, fact.Pledge client_fd (liftM (strdup text) >>= next))
    (hnext : Keeps net client_fd event facts (next text)) :
    Keeps net client_fd event facts (liftM (strdup text) >>= next) :=
  keeps_skip (reads_strdup text) hpledge fun _ value hvalue => by rw [hvalue]; exact hnext

/-- A refusal confirms nothing. -/
theorem plain_of_result {message : Message} {result : CString} (htype : message.type = .RESPONSE)
    (hresult : message.result = some result) (hother : result ≠ .lit "SUCCESS") : message.Plain :=
  ⟨by rw [htype]; nofun, by rw [hresult]; simpa using hother⟩

/-- A message that is no response confirms nothing. -/
theorem plain_of_no_result {message : Message} (htype : message.type ≠ .TEXT_FROM) (hresult : message.result = none) :
    message.Plain := ⟨htype, by rw [hresult]; nofun⟩

/-- A handler may send what it knows enough for, and disconnect whom it cannot
reach. -/
theorem keeps_send_or_disconnect {fd failed_fd : Fd} {message : Message} {rest : Bool → Handler Unit}
    (hsayable : Sayable client_fd event facts fd message) (hfailed : failed_fd = client_fd ∨ failed_fd = fd)
    (hpledge : ∀ fact ∈ facts, fact.Pledge client_fd (send_or_disconnect net fd message failed_fd >>= rest))
    (hrest : Keeps net client_fd event [] (rest true)) :
    Keeps net client_fd event facts (send_or_disconnect net fd message failed_fd >>= rest) := by
  unfold send_or_disconnect at hpledge ⊢
  rw [bind_assoc] at hpledge ⊢
  refine keeps_send hsayable hpledge (List.nil_subset _) hrest ?_
  refine keeps_process_disconnect ?_ (List.forall_mem_singleton.mpr fun _ => trivial) hrest
  exact hfailed.imp_right fun hsame => by rw [hsame]; exact List.mem_cons_self

/-- The reply to the own client that ends most handlers. -/
theorem keeps_reply {message : Message} (hsayable : Sayable client_fd event facts client_fd message)
    (hfree : Free client_fd facts) :
    Keeps net client_fd event facts (send_or_disconnect net client_fd message client_fd >>= fun _ => pure ()) :=
  keeps_send_or_disconnect hsayable (Or.inl rfl) (fun fact hmem => hfree fact hmem _) (keeps_done free_nil)

/-- A client may always be told that its request is invalid, and be disconnected. -/
theorem keeps_send_invalid_and_disconnect (hfree : Free client_fd facts) :
    Keeps net client_fd event facts (send_invalid_and_disconnect net client_fd >>= fun _ => pure ()) := by
  unfold send_invalid_and_disconnect
  simp only [bind_assoc]
  refine keeps_strdup (fun fact hmem => hfree fact hmem _) (keeps_strdup (fun fact hmem => hfree fact hmem _) ?_)
  simp only [Option.isNone_some, Bool.false_eq_true, or_self, if_false, bind_assoc]
  have hplain : (response (.lit "INVALID") (.lit "INVALID") none).Plain := plain_of_result rfl rfl (by decide)
  refine keeps_send (.plain client_fd hplain) (fun fact hmem => hfree fact hmem _) (List.nil_subset _) ?_ ?_
  · exact keeps_process_disconnect (Or.inl rfl) free_nil (keeps_done free_nil)
  · exact keeps_process_disconnect (Or.inl rfl) (List.forall_mem_singleton.mpr fun _ => trivial) (keeps_done free_nil)

end Replies

section Users

variable {net : Net} {client_fd : Fd} {event : Event}

/-- The plan of IDENTIFY: the name is confirmed only after it was added. -/
theorem keeps_process_identify (msg_in : Message) :
    Keeps net client_fd event [] (process_identify net msg_in client_fd >>= fun _ => pure ()) := by
  unfold process_identify
  split
  · exact keeps_done free_nil
  simp only [bind_assoc]
  refine keeps_skip (reads_strndup _ _) (List.forall_mem_nil _) fun _ username _ => ?_
  cases username with
  | none => exact keeps_done free_nil
  | some username =>
    simp only [bind_assoc]
    refine keeps_look (reads_users_table_query _) (List.forall_mem_nil _) fun server registered hregistered => ?_
    cases registered with
    | some user =>
      refine ⟨[], List.forall_mem_nil _, ?_⟩
      dsimp only
      split
      · exact keeps_send_invalid_and_disconnect free_nil
      · exact keeps_done free_nil
    | none =>
      refine ⟨[.absent], List.forall_mem_singleton.mpr (Or.inr ⟨rfl, hregistered.symm⟩), ?_⟩
      have habsent : Free client_fd [.absent] := List.forall_mem_singleton.mpr fun _ => trivial
      simp only [bind_assoc]
      refine keeps_skip (reads_users_table_find_by_username _) (fun fact hmem => habsent fact hmem _)
        fun _ taken _ => ?_
      cases taken with
      | some user =>
        dsimp only
        split
        · simp only [bind_assoc]
          refine keeps_strdup (fun fact hmem => habsent fact hmem _) ?_
          refine keeps_strdup (fun fact hmem => habsent fact hmem _) ?_
          refine keeps_strdup (fun fact hmem => habsent fact hmem _) ?_
          have hplain : (response (.lit "IDENTIFY") (.lit "USER_ALREADY_EXISTS") username).Plain :=
            plain_of_result rfl rfl (by decide)
          refine keeps_send (.plain client_fd hplain) (fun fact hmem => habsent fact hmem _) (List.nil_subset _) ?_ ?_
          · exact keeps_process_disconnect (Or.inl rfl) free_nil (keeps_done free_nil)
          · exact keeps_process_disconnect (Or.inl rfl) (List.forall_mem_singleton.mpr fun _ => trivial)
              (keeps_done free_nil)
        · exact keeps_done habsent
      | none =>
        simp only [bind_assoc]
        refine keeps_act (does_users_table_add username client_fd) (fun fact hmem => habsent fact hmem _) ?_
        rintro server added deed (⟨rfl, hfree, user, hinit, rfl⟩ | ⟨rfl, rfl, -⟩)
        · obtain ⟨rfl, hfd, -⟩ := user_init_eq_some_iff.mp hinit
          refine ⟨[.named user.username], ⟨⟨List.mem_cons_self, hfd, hfree⟩, List.forall_mem_nil _,
            List.forall_mem_singleton.mpr (Or.inr ⟨user, rfl, rfl⟩)⟩, ?_⟩
          have hnamed : Free client_fd [.named user.username] := List.forall_mem_singleton.mpr fun _ => trivial
          simp only [if_true, bind_assoc]
          refine keeps_strdup (fun fact hmem => hnamed fact hmem _) ?_
          refine keeps_strdup (fun fact hmem => hnamed fact hmem _) ?_
          refine keeps_strdup (fun fact hmem => hnamed fact hmem _) ?_
          refine keeps_send (.identified user.username List.mem_cons_self) (fun fact hmem => hnamed fact hmem _)
            (List.nil_subset _) ?_ ?_
          · simp only [if_true, bind_assoc]
            refine keeps_strdup (List.forall_mem_nil _) ?_
            exact keeps_notify (plain_of_no_result (by simp) rfl) client_fd (List.forall_mem_nil _)
              (keeps_done free_nil)
          · exact keeps_process_disconnect (Or.inl rfl) (List.forall_mem_singleton.mpr fun _ => trivial)
              (keeps_done free_nil)
        · exact ⟨[], ⟨trivial, List.forall_mem_nil _, List.forall_mem_nil _⟩, keeps_done free_nil⟩

/-- A deed that needs no facts and brings none. -/
theorem keeps_mark {A : Type} {action : Action A} {next : A → Handler Unit} (deed : Deed) (hsilent : deed.effects = [])
    (hallowed : ∀ program server, deed.Allowed client_fd event [] program server)
    (haction : Does net action fun _ _ done => done = deed)
    (hnext : ∀ value, Keeps net client_fd event [] (next value)) :
    Keeps net client_fd event [] (liftM action >>= next) := by
  refine keeps_act haction (List.forall_mem_nil _) ?_
  rintro server value done rfl
  refine ⟨[], ⟨hallowed _ _, ?_, List.forall_mem_nil _⟩, hnext value⟩
  rw [hsilent]
  exact List.forall_mem_nil _

/-- The plan of STATUS. -/
theorem keeps_process_status (msg_in : Message) :
    Keeps net client_fd event [] (process_status net msg_in client_fd >>= fun _ => pure ()) := by
  unfold process_status
  split
  · exact keeps_done free_nil
  simp only [bind_assoc]
  refine keeps_strdup (List.forall_mem_nil _) ?_
  cases user_status_from_string msg_in.status with
  | none => exact keeps_send_invalid_and_disconnect free_nil
  | some msg_status =>
    simp only [bind_assoc]
    refine keeps_skip (reads_users_table_query _) (List.forall_mem_nil _) fun _ found _ => ?_
    cases found with
    | none => exact keeps_done free_nil
    | some user =>
      dsimp only
      split
      · simp only [bind_assoc]
        refine keeps_mark (.mark client_fd msg_status) rfl (fun _ _ => trivial)
          (does_users_table_change_status client_fd msg_status) fun _ => ?_
        refine keeps_mark (.mark_rooms user.socket_fd msg_status) rfl (fun _ _ => trivial)
          (does_room_update_status user msg_status) fun _ => ?_
        refine keeps_strdup (List.forall_mem_nil _) (keeps_strdup (List.forall_mem_nil _) ?_)
        exact keeps_notify (plain_of_no_result (by simp) rfl) client_fd (List.forall_mem_nil _) (keeps_done free_nil)
      · exact keeps_done free_nil

/-- The plan of USERS. -/
theorem keeps_process_users :
    Keeps net client_fd event [] (process_users net client_fd >>= fun _ => pure ()) := by
  unfold process_users
  simp only [bind_assoc]
  refine keeps_skip (reads_users_table_query _) (List.forall_mem_nil _) fun _ users _ => ?_
  exact keeps_reply (.plain client_fd (plain_of_no_result (by simp) rfl)) free_nil

/-- The plan of PUBLIC_TEXT. -/
theorem keeps_process_public_text (msg_in : Message) :
    Keeps net client_fd event [] (process_public_text net msg_in client_fd >>= fun _ => pure ()) := by
  unfold process_public_text
  simp only [bind_assoc]
  refine keeps_skip (reads_users_table_query _) (List.forall_mem_nil _) fun _ sender _ => ?_
  cases sender with
  | none => exact keeps_done free_nil
  | some user_from =>
    simp only [bind_assoc]
    refine keeps_strdup (List.forall_mem_nil _) (keeps_strdup (List.forall_mem_nil _) ?_)
    split
    · exact keeps_done free_nil
    · rw [bind_assoc]
      exact keeps_notify (plain_of_no_result (by simp) rfl) client_fd (List.forall_mem_nil _) (keeps_done free_nil)

end Users

section PrivateText

variable {net : Net} {client_fd : Fd}

/-- What only reads leaves the world alone. -/
theorem idles_of_reads {A : Type} {action : Action A} {spec : Server → A → Prop} (haction : Reads net action spec) :
    Idles action := by
  intro world hproper value after hrun
  have hdoes := haction world hproper
  rw [hrun] at hdoes
  obtain ⟨deed, rfl, -, rfl⟩ := hdoes
  exact Deed.perform_look world

/-- A send of a TEXT_FROM sends a private text. -/
theorem sendsText_server_send {fd : Fd} {message : Message} (htype : message.type = .TEXT_FROM) :
    SendsText fd (server_send net fd message) := fun _ trace =>
  ⟨_, _, message, net trace fd message, rfl, htype, rfl⟩

/-- The rest of TEXT, while its text is still to be sent. -/
def Carries (net : Net) (client_fd : Fd) (event : Event) (user : User) (program : Handler Unit) : Prop :=
  program.Committed user.socket_fd ∧ Keeps net client_fd event [.addressee user] program

/-- The rest of TEXT, when its text will not be sent. -/
def Ends (net : Net) (client_fd : Fd) (event : Event) (user : User) (program : Handler Unit) : Prop :=
  program.Until Idles (SendsText user.socket_fd) ∧ Keeps net client_fd event [] program

section Carries

variable {event : Event} {user : User}

theorem ends_done : Ends net client_fd event user (pure ()) := ⟨trivial, keeps_done free_nil⟩

/-- Something may be read before the text is sent. -/
theorem ends_read {A : Type} {action : Action A} {spec : Server → A → Prop} {next : A → Handler Unit}
    (haction : Reads net action spec) (hnext : ∀ value, Ends net client_fd event user (next value)) :
    Ends net client_fd event user (liftM action >>= next) :=
  ⟨Or.inr ⟨idles_of_reads haction, fun value => (hnext value).1⟩,
    keeps_skip haction (List.forall_mem_nil _) fun _ value _ => (hnext value).2⟩

/-- A step of TEXT on which it depends whether the text will be sent. -/
theorem carries_read {A : Type} {action : Action A} {spec : Server → A → Prop} {next : A → Handler Unit}
    (haction : Reads net action spec) (P : A → Prop) (hexists : ∃ value, P value)
    (hends : ∀ value, ¬ P value → Ends net client_fd event user (next value))
    (hnext : ∀ value, P value → Carries net client_fd event user (next value)) :
    Carries net client_fd event user (liftM action >>= next) := by
  obtain ⟨sample, hsample⟩ := hexists
  have hcommitted : Handler.Committed user.socket_fd (liftM action >>= next) := by
    refine ⟨Or.inr ⟨idles_of_reads haction, fun value => ?_⟩, Or.inr ⟨sample, (hnext sample hsample).1.2⟩⟩
    by_cases hvalue : P value
    · exact (hnext value hvalue).1.1
    · exact (hends value hvalue).1
  refine ⟨hcommitted, keeps_look haction (List.forall_mem_singleton.mpr hcommitted) fun server value _ => ?_⟩
  by_cases hvalue : P value
  · exact ⟨[.addressee user], fun _ => Or.inl, (hnext value hvalue).2⟩
  · exact ⟨[], List.forall_mem_nil _, (hends value hvalue).2⟩

/-- The text goes to the descriptor of the record that was found. -/
theorem carries_send {message : Message} (htype : message.type = .TEXT_FROM) :
    Carries net client_fd event user
      (send_or_disconnect net user.socket_fd message client_fd >>= fun _ => pure ()) := by
  have hcommitted : Handler.Committed user.socket_fd
      (send_or_disconnect net user.socket_fd message client_fd >>= fun _ => pure ()) :=
    ⟨Or.inl (sendsText_server_send htype), Or.inl (sendsText_server_send htype)⟩
  exact ⟨hcommitted, keeps_send_or_disconnect (.text_from user htype List.mem_cons_self) (Or.inl rfl)
    (List.forall_mem_singleton.mpr hcommitted) (keeps_done free_nil)⟩

end Carries

/-- The plan of TEXT: the text is sent with the record of the addressee and with
nothing in between. -/
theorem keeps_process_text (msg_in : Message) (htype : msg_in.type = .TEXT) :
    Keeps net client_fd (.request client_fd msg_in) []
      (process_text net msg_in client_fd >>= fun _ => pure ()) := by
  unfold process_text
  simp only [bind_assoc]
  refine keeps_look (reads_users_table_find_by_username _) (List.forall_mem_nil _) fun _ addressee hfound => ?_
  obtain ⟨username, hname, haddressee⟩ := hfound
  cases addressee with
  | none =>
    refine ⟨[], List.forall_mem_nil _, ?_⟩
    simp only [bind_assoc]
    refine keeps_strdup (List.forall_mem_nil _) (keeps_strdup (List.forall_mem_nil _) ?_)
    refine keeps_strdup (List.forall_mem_nil _) ?_
    split
    · exact keeps_done free_nil
    · exact keeps_reply (.plain client_fd (plain_of_result rfl rfl (by decide))) free_nil
  | some user_to =>
    refine ⟨[.addressee user_to],
      List.forall_mem_singleton.mpr (Or.inr ⟨rfl, htype, username, hname, haddressee.symm⟩), ?_⟩
    simp only [bind_assoc]
    refine (carries_read (reads_users_table_query _)
      (fun compared => compared.map User.username ≠ some user_to.username) ⟨none, nofun⟩
      (fun compared hsame => ?_) fun compared hother => ?_).2
    · rw [if_pos (not_not.mp hsame)]
      exact ends_done
    rw [if_neg hother, bind_assoc]
    refine carries_read (reads_users_table_query _) (fun sender => sender.isSome) ⟨some user_to, rfl⟩
      (fun sender hnone => ?_) fun sender hsome => ?_
    · rw [Bool.not_eq_true, Option.isSome_eq_false_iff, Option.isNone_iff_eq_none] at hnone
      subst hnone
      exact ends_done
    obtain ⟨user_from, rfl⟩ := Option.isSome_iff_exists.mp hsome
    simp only [bind_assoc]
    refine carries_read (reads_strdup _) (fun username => username.isSome) ⟨some username, rfl⟩
      (fun copied hnone => ?_) fun copied hsome => ?_
    · rw [Bool.not_eq_true, Option.isSome_eq_false_iff] at hnone
      refine ends_read (reads_strdup _) fun text => ?_
      rw [if_pos (Or.inl hnone)]
      exact ends_done
    refine carries_read (reads_strdup _) (fun text => text.isSome) ⟨some username, rfl⟩
      (fun text hnone => ?_) fun text htext => ?_
    · rw [Bool.not_eq_true, Option.isSome_eq_false_iff] at hnone
      rw [if_pos (Or.inr hnone)]
      exact ends_done
    · obtain ⟨name, rfl⟩ := Option.isSome_iff_exists.mp hsome
      obtain ⟨content, rfl⟩ := Option.isSome_iff_exists.mp htext
      rw [if_neg (by simp)]
      exact carries_send rfl

end PrivateText

end ojalvo
