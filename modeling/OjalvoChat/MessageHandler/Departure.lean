import OjalvoChat.MessageHandler.Broadcast

namespace ojalvo

def disconnected_notice (username : CString) : Message :=
  { message_init with type := .DISCONNECTED, username := some username }

def response (operation result : CString) (extra : Option CString) : Message :=
  { message_init with type := .RESPONSE, operation := some operation, result := some result, extra }

/-- Handlers fill in a response field by field. -/
@[simp] theorem response_fold (operation result : CString) (extra : Option CString) :
    { message_init with type := .RESPONSE, operation := some operation, result := some result, extra } =
      response operation result extra := rfl

@[simp] theorem response_fold_plain (operation result : CString) :
    { message_init with type := .RESPONSE, operation := some operation, result := some result } =
      response operation result none := rfl

@[simp] theorem disconnected_notice_fold (username : CString) :
    { message_init with type := .DISCONNECTED, username := some username } = disconnected_notice username := rfl

/-- The sends that announce a departure. An unregistered descriptor leaves
without notice. -/
def departure_notices (net : Net) (server : Server) (trace : List Effect) (client_fd : Fd) : List Effect :=
  match server.users.find_by_client_fd client_fd with
  | none => []
  | some user => broadcast net (disconnected_notice user.username) trace (recipients server.users.entries client_fd)

/-- The tables after a departure: those who could not be told are evicted, then
the departing user is forgotten. -/
def Server.depart (net : Net) (trace : List Effect) (client_fd : Fd) (server : Server) : Server :=
  match server.users.find_by_client_fd client_fd with
  | none => server
  | some user =>
    (server.evict_all (failures (departure_notices net server trace client_fd))).forget user.username

/-- The idle world after a departure. -/
def departed (net : Net) (server : Server) (trace : List Effect) (client_fd : Fd) : World :=
  .idle (server.depart net trace client_fd)
    (trace ++ departure_notices net server trace client_fd ++ [.close client_fd])

section Runs

variable (net : Net) (server : Server) (trace : List Effect) (client_fd : Fd)

theorem run_process_disconnect :
    (process_disconnect net client_fd).run (.idle server trace) = .ok true (departed net server trace client_fd) := by
  simp only [process_disconnect, departed, Server.depart, departure_notices, Program.run_bind, Program.run_lift,
    users_table_find_by_client_fd, run_users_table_query, List.not_mem_nil, if_false,
    UsersTablePtr.read_server_users]
  cases hfound : server.users.find_by_client_fd client_fd with
  | none => simp
  | some user =>
    have hvisit := fun (server : Server) (trace : List Effect) =>
      run_room_table_for_each server trace allocating (room_remove_data user) (Room.forget user.username)
        fun server room => run_room_remove_data server trace allocating user room
    simp only [Program.run_bind, Program.run_lift, run_strdup_some, run_notify_users, hvisit, users_table_remove,
      run_users_table_update, List.not_mem_nil, if_false, UsersTablePtr.read_server_users,
      UsersTablePtr.modify_server_users, run_server_disconnect_client, Program.run_pure]
    rfl

/-- Whatever memory there is, a client departs if a message cannot be sent. -/
theorem run_send_or_disconnect_any (alloc : Nat → Bool) (message : Message) (failed_fd : Fd) :
    let sent := net trace client_fd message
    let told := World.mk server [] (trace ++ [.send client_fd message sent]) alloc
    (send_or_disconnect net client_fd message failed_fd).run ⟨server, [], trace, alloc⟩ =
      if sent then .ok true told else (process_disconnect net failed_fd).run told := by
  intro sent told
  rw [send_or_disconnect, Program.run_bind, Program.run_lift, run_server_send]
  change (if sent then pure true else process_disconnect net failed_fd : Handler Bool).run told = _
  by_cases hsent : sent
  · rw [if_pos hsent, if_pos hsent]
    rfl
  · rw [if_neg hsent, if_neg hsent]

theorem run_send_or_disconnect (message : Message) (failed_fd : Fd) :
    (send_or_disconnect net client_fd message failed_fd).run (.idle server trace) =
      let sent := net trace client_fd message
      if sent then .ok true (.idle server (trace ++ [.send client_fd message sent]))
      else .ok true (departed net server (trace ++ [.send client_fd message sent]) failed_fd) := by
  refine (run_send_or_disconnect_any net server trace client_fd allocating message failed_fd).trans ?_
  exact if_congr Iff.rfl rfl (run_process_disconnect net server _ failed_fd)

def invalid_response : Message := response (.lit "INVALID") (.lit "INVALID") none

theorem run_send_invalid_and_disconnect :
    (send_invalid_and_disconnect net client_fd).run (.idle server trace) =
      .ok true (departed net server (trace ++ [.send client_fd invalid_response (net trace client_fd invalid_response)])
        client_fd) := by
  simp only [send_invalid_and_disconnect, Program.run_bind, Program.run_lift, run_strdup_some, Option.isNone_some,
    Bool.false_eq_true, or_self, if_false, run_server_send]
  exact run_process_disconnect net server _ client_fd

end Runs

end ojalvo
