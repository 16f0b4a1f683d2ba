import OjalvoChat.Concurrency.Registration

namespace ojalvo

/-- Both tables of a room own every record under its own name. -/
structure Room.Named (room : Room) : Prop where
  members : room.members.Named
  guests : room.guests.Named

def Server.RoomsNamed (server : Server) : Prop :=
  ∀ roomname room, server.rooms.lookup roomname = some room → room.Named

/-- A room has a copy of the record of a connection, as of a member or as of a
guest. -/
abbrev Server.Copied (server : Server) (roomname : CString) (fd : Fd) (username : CString) : Prop :=
  server.Member roomname fd username ∨ server.Guest roomname fd username

/-- What a deed makes of a room that it neither opens nor drops. -/
def Deed.change (deed : Deed) (roomname : CString) (room : Room) : Room :=
  match deed with
  | .clear username => room.forget username
  | .mark_rooms client_fd status => room.update_status client_fd status
  | .seat seated user => if roomname = seated then room.change_members fun members => members.add user else room
  | .invite invited_to user => if roomname = invited_to then room.change_guests fun guests => guests.add user else room
  | .let_in joined user => if roomname = joined then room.let_in user else room
  | .unseat left username =>
    if roomname = left then room.change_members fun members => members.remove username else room
  | _ => room

section Change

variable {server : Server} {room : Room} {roomname username : CString} {fd : Fd}

theorem Deed.lookup_apply (deed : Deed) (server : Server) (roomname : CString) :
    (deed.apply server).rooms.lookup roomname =
      match deed with
      | .open_room opened named =>
        if roomname = opened then some (room_new opened named) else server.rooms.lookup roomname
      | .drop dropped => if roomname = dropped then none else server.rooms.lookup roomname
      | _ => (server.rooms.lookup roomname).map (deed.change roomname) := by
  cases deed with
  | open_room opened named => exact HashTable.lookup_insert_eq opened roomname (room_new opened named) server.rooms
  | drop dropped => exact HashTable.lookup_erase_eq dropped roomname server.rooms
  | clear username => exact HashTable.lookup_mapEntries _ server.rooms roomname
  | mark_rooms client_fd status => exact HashTable.lookup_mapEntries _ server.rooms roomname
  | seat seated user => exact HashTable.lookup_adjust seated roomname _ server.rooms
  | invite invited_to user => exact HashTable.lookup_adjust invited_to roomname _ server.rooms
  | let_in joined user => exact HashTable.lookup_adjust joined roomname _ server.rooms
  | unseat left username => exact HashTable.lookup_adjust left roomname _ server.rooms
  | _ => exact (congrFun Option.map_id _).symm

theorem Room.Named.change (hroom : room.Named) (deed : Deed) (roomname : CString) :
    (deed.change roomname room).Named := by
  cases deed with
  | clear username => exact ⟨hroom.members.remove username, hroom.guests.remove username⟩
  | mark_rooms client_fd status =>
    exact ⟨hroom.members.change_status client_fd status, hroom.guests.change_status client_fd status⟩
  | seat seated user =>
    dsimp only [Deed.change]
    split
    · exact ⟨hroom.members.add user, hroom.guests⟩
    · exact hroom
  | invite invited_to user =>
    dsimp only [Deed.change]
    split
    · exact ⟨hroom.members, hroom.guests.add user⟩
    · exact hroom
  | let_in joined user =>
    dsimp only [Deed.change]
    split
    · exact ⟨hroom.members.add user, hroom.guests.remove user.username⟩
    · exact hroom
  | unseat left username =>
    dsimp only [Deed.change]
    split
    · exact ⟨hroom.members.remove username, hroom.guests⟩
    · exact hroom
  | _ => exact hroom

/-- Who is a member of a room after a deed. -/
theorem Room.Named.lists_members_change (hroom : room.Named) (deed : Deed) :
    (deed.change roomname room).members.Lists fd username ↔
      match deed with
      | .clear cleared => room.members.Lists fd username ∧ username ≠ cleared
      | .unseat left leaver => room.members.Lists fd username ∧ (roomname = left → username ≠ leaver)
      | .seat entered user | .let_in entered user =>
        room.members.Lists fd username ∨
          (roomname = entered ∧ room.members.find_by_username user.username = none ∧ user.username = username ∧
            user.socket_fd = fd)
      | _ => room.members.Lists fd username := by
  cases deed with
  | clear cleared => exact hroom.members.lists_remove cleared
  | mark_rooms client_fd status => exact hroom.members.lists_change_status client_fd status
  | seat seated user =>
    dsimp only [Deed.change]
    by_cases hsame : roomname = seated
    · simp only [hsame, if_true, true_and]
      exact hroom.members.lists_add user
    · simp only [hsame, if_false, false_and, or_false]
  | let_in joined user =>
    dsimp only [Deed.change]
    by_cases hsame : roomname = joined
    · simp only [hsame, if_true, true_and]
      exact hroom.members.lists_add user
    · simp only [hsame, if_false, false_and, or_false]
  | invite invited_to user =>
    dsimp only [Deed.change]
    split <;> exact Iff.rfl
  | unseat left leaver =>
    dsimp only [Deed.change]
    by_cases hsame : roomname = left
    · simp only [hsame, if_true, true_implies]
      exact hroom.members.lists_remove leaver
    · simp only [hsame, if_false, false_implies, and_true]
  | _ => exact Iff.rfl

/-- Where a room comes from that is there after a deed. -/
theorem Deed.room_before {deed : Deed} {after : Room} (hroom : (deed.apply server).rooms.lookup roomname = some after) :
    (∃ named, deed = .open_room roomname named ∧ after = room_new roomname named) ∨
      ∃ before, server.rooms.lookup roomname = some before ∧ after = deed.change roomname before := by
  rw [Deed.lookup_apply] at hroom
  have hchanged : ∀ {found : Option Room}, found = server.rooms.lookup roomname →
      found.map (deed.change roomname) = some after →
      ∃ before, server.rooms.lookup roomname = some before ∧ after = deed.change roomname before := by
    rintro found rfl hmapped
    obtain ⟨before, hbefore, rfl⟩ := Option.map_eq_some_iff.mp hmapped
    exact ⟨before, hbefore, rfl⟩
  cases deed with
  | open_room opened named =>
    dsimp only at hroom
    split at hroom
    · rename_i hsame
      subst hsame
      exact Or.inl ⟨named, rfl, (Option.some.inj hroom).symm⟩
    · exact Or.inr ⟨after, hroom, rfl⟩
  | drop dropped =>
    dsimp only at hroom
    split at hroom
    · cases hroom
    · exact Or.inr ⟨after, hroom, rfl⟩
  | _ => exact Or.inr (hchanged rfl hroom)

theorem Server.RoomsNamed.apply (hrooms : server.RoomsNamed) (deed : Deed) : (deed.apply server).RoomsNamed := by
  intro roomname room hroom
  rcases Deed.room_before hroom with ⟨named, -, rfl⟩ | ⟨before, hbefore, rfl⟩
  · exact ⟨UsersTable.named_init, UsersTable.named_init⟩
  · exact (hrooms roomname before hbefore).change deed roomname

/-- What becomes of a room in a deed. -/
theorem Deed.room_after {before : Room} (hroom : server.rooms.lookup roomname = some before) (deed : Deed) :
    deed = .drop roomname ∨ (∃ named, deed = .open_room roomname named) ∨
      (deed.apply server).rooms.lookup roomname = some (deed.change roomname before) := by
  rw [Deed.lookup_apply, hroom]
  cases deed with
  | open_room opened named =>
    dsimp only
    split
    · rename_i hsame
      subst hsame
      exact Or.inr (Or.inl ⟨named, rfl⟩)
    · exact Or.inr (Or.inr rfl)
  | drop dropped =>
    dsimp only
    split
    · rename_i hsame
      subst hsame
      exact Or.inl rfl
    · exact Or.inr (Or.inr rfl)
  | _ => exact Or.inr (Or.inr rfl)

/-- Who is a member after a deed was one before, or has been seated by it. -/
theorem Server.RoomsNamed.member_before (hrooms : server.RoomsNamed) {deed : Deed}
    (hmember : (deed.apply server).Member roomname fd username) :
    server.Member roomname fd username ∨
      ∃ user, (deed = .seat roomname user ∨ deed = .let_in roomname user) ∧ user.username = username ∧
        user.socket_fd = fd := by
  obtain ⟨after, hafter, hlists⟩ := hmember
  rcases Deed.room_before hafter with ⟨named, -, rfl⟩ | ⟨before, hbefore, rfl⟩
  · exact absurd hlists UsersTable.not_lists_init
  have hold : before.members.Lists fd username → server.Member roomname fd username := fun h => ⟨before, hbefore, h⟩
  rw [(hrooms roomname before hbefore).lists_members_change] at hlists
  cases deed with
  | clear cleared => exact Or.inl (hold hlists.1)
  | unseat left leaver => exact Or.inl (hold hlists.1)
  | seat entered user =>
    rcases hlists with hlists | ⟨rfl, -, hname, hfd⟩
    · exact Or.inl (hold hlists)
    · exact Or.inr ⟨user, Or.inl rfl, hname, hfd⟩
  | let_in entered user =>
    rcases hlists with hlists | ⟨rfl, -, hname, hfd⟩
    · exact Or.inl (hold hlists)
    · exact Or.inr ⟨user, Or.inr rfl, hname, hfd⟩
  | _ => exact Or.inl (hold hlists)

/-- A member stays one, except in four deeds. -/
theorem Server.RoomsNamed.member_after (hrooms : server.RoomsNamed) (deed : Deed)
    (hmember : server.Member roomname fd username) :
    (deed.apply server).Member roomname fd username ∨ deed = .drop roomname ∨ deed = .clear username ∨
      deed = .unseat roomname username ∨ ∃ named, deed = .open_room roomname named := by
  obtain ⟨before, hbefore, hlists⟩ := hmember
  rcases Deed.room_after hbefore deed with rfl | hopen | hafter
  · exact Or.inr (Or.inl rfl)
  · exact Or.inr (Or.inr (Or.inr (Or.inr hopen)))
  have hkept : (deed.change roomname before).members.Lists fd username ↔ _ :=
    (hrooms roomname before hbefore).lists_members_change deed
  have hnew : (deed.change roomname before).members.Lists fd username →
      (deed.apply server).Member roomname fd username := fun h => ⟨_, hafter, h⟩
  cases deed with
  | clear cleared =>
    by_cases hname : username = cleared
    · exact Or.inr (Or.inr (Or.inl (by rw [hname])))
    · exact Or.inl (hnew (hkept.mpr ⟨hlists, hname⟩))
  | unseat left leaver =>
    by_cases hname : roomname = left ∧ username = leaver
    · obtain ⟨rfl, rfl⟩ := hname
      exact Or.inr (Or.inr (Or.inr (Or.inl rfl)))
    · exact Or.inl (hnew (hkept.mpr ⟨hlists, fun hroom hleaver => hname ⟨hroom, hleaver⟩⟩))
  | seat entered user => exact Or.inl (hnew (hkept.mpr (Or.inl hlists)))
  | let_in entered user => exact Or.inl (hnew (hkept.mpr (Or.inl hlists)))
  | _ => exact Or.inl (hnew (hkept.mpr hlists))

/-- A user is seated in a room that exists, unless another record has the name. -/
theorem Server.RoomsNamed.member_seated (hrooms : server.RoomsNamed) {deed : Deed} {user : User}
    (hdeed : deed = .seat roomname user ∨ deed = .let_in roomname user)
    (hroom : (server.rooms.lookup roomname).isSome)
    (hsole : ∀ fd, server.Member roomname fd user.username → fd = user.socket_fd) :
    (deed.apply server).Member roomname user.socket_fd user.username := by
  obtain ⟨before, hbefore⟩ := Option.isSome_iff_exists.mp hroom
  have hnamed := hrooms roomname before hbefore
  have hlists : (deed.change roomname before).members.Lists user.socket_fd user.username := by
    have hseated : before.members.Lists user.socket_fd user.username ∨
        (roomname = roomname ∧ before.members.find_by_username user.username = none ∧ user.username = user.username ∧
          user.socket_fd = user.socket_fd) := by
      cases hfound : before.members.find_by_username user.username with
      | none => exact Or.inr ⟨rfl, rfl, rfl, rfl⟩
      | some found =>
        have hlisted : before.members.Lists found.socket_fd user.username :=
          hnamed.members.lists_iff_lookup.mpr ⟨found, hfound, rfl⟩
        exact Or.inl (hsole _ ⟨before, hbefore, hlisted⟩ ▸ hlisted)
    rw [hnamed.lists_members_change]
    rcases hdeed with rfl | rfl
    · exact hseated
    · exact hseated
  rcases Deed.room_after hbefore deed with rfl | ⟨named, rfl⟩ | hafter
  · rcases hdeed with heq | heq <;> cases heq
  · rcases hdeed with heq | heq <;> cases heq
  · exact ⟨_, hafter, hlists⟩

/-- Nobody of the name is left in the rooms once it has been cleared from them. -/
theorem Server.RoomsNamed.not_copied_clear (hrooms : server.RoomsNamed) (cleared : CString) :
    ¬ ((Deed.clear cleared).apply server).Copied roomname fd cleared := by
  have hgone : ∀ table : Room → UsersTable,
      (∀ room : Room, room.Named → (table room).Named ∧ table (room.forget cleared) = (table room).remove cleared) →
      ¬ ((Deed.clear cleared).apply server).Seats table roomname fd cleared := by
    rintro table htable ⟨room, hroom, hlists⟩
    rw [Deed.lookup_apply] at hroom
    obtain ⟨old, hold, rfl⟩ := Option.map_eq_some_iff.mp hroom
    obtain ⟨hnamed, hforgotten⟩ := htable old (hrooms roomname old hold)
    change (table (old.forget cleared)).Lists fd cleared at hlists
    rw [hforgotten, hnamed.lists_remove] at hlists
    exact hlists.2 rfl
  rintro (hmember | hguest)
  · exact hgone Room.members (fun room hroom => ⟨hroom.members, rfl⟩) hmember
  · exact hgone Room.guests (fun room hroom => ⟨hroom.guests, rfl⟩) hguest

end Change

end ojalvo
