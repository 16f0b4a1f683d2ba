import Mathlib.Data.List.Induction
import OjalvoChat.Client.Controller

namespace ojalvo

/-- Every surrogate of the string has its partner. -/
def JsonString.HasText (string : JsonString) : Prop := (utf16_text string).isSome = true

instance (string : JsonString) : Decidable string.HasText :=
  inferInstanceAs (Decidable ((utf16_text string).isSome = true))

/-- A value that `GetString` reads. -/
def JsonElement.Textual (element : JsonElement) : Prop :=
  match element with
  | .string value => value.HasText
  | .null => True
  | _ => False

/-- The text of a string, and of null no text. -/
def JsonElement.text (element : JsonElement) : String :=
  match element with
  | .string value => (utf16_text value).getD ""
  | _ => ""

/-- A search for this name is not stopped by a key: behind each that it unescapes and
that has no text, it has found a property with the name. -/
def Findable (unescapes : JsonString → String → Bool) (properties : List (JsonString × JsonElement)) (name : String) :
    Prop :=
  ∀ before key value after, properties = before ++ (key, value) :: after → ¬ key.HasText → unescapes key name = true →
    ∃ found ∈ after, found.1 = utf16_units name

/-- The texts of a message of this type. -/
def text_fields (type : String) : List String :=
  match type with
  | "RESPONSE" => ["operation", "result", "extra"]
  | "NEW_USER" => ["username"]
  | "NEW_STATUS" => ["username", "status"]
  | "TEXT_FROM" => ["username", "text"]
  | "PUBLIC_TEXT_FROM" => ["username", "text"]
  | "INVITATION" => ["username", "roomname"]
  | "JOINED_ROOM" => ["roomname", "username"]
  | "ROOM_USER_LIST" => ["roomname"]
  | "ROOM_TEXT_FROM" => ["roomname", "username", "text"]
  | "LEFT_ROOM" => ["roomname", "username"]
  | "DISCONNECTED" => ["username"]
  | _ => []

/-- The types of message that list users. -/
def lists_users (type : String) : Prop := type = "USER_LIST" ∨ type = "ROOM_USER_LIST"

/-- An object whose users, if it has any, are an object of texts. -/
def UsersTextual (unescapes : JsonString → String → Bool) (properties : List (JsonString × JsonElement)) : Prop :=
  Findable unescapes properties "users" ∧ ∀ users, property properties "users" = some users →
    ∃ entries, users = .object entries ∧ ∀ entry ∈ entries, entry.1.HasText ∧ entry.2.Textual

/-- An object with nothing but texts where a message of its type has texts, and with
texts for the users that it lists, in which all of these are found. -/
def WellKinded (unescapes : JsonString → String → Bool) (root : JsonElement) : Prop :=
  ∃ properties, root = .object properties ∧ Findable unescapes properties "type" ∧
    ∀ type, property properties "type" = some type → type.Textual ∧
      (∀ name ∈ text_fields type.text, Findable unescapes properties name ∧
        ∀ value, property properties name = some value → value.Textual) ∧
      (lists_users type.text → UsersTextual unescapes properties)

/-- The value of a computation that does not throw. -/
def Throws.Returns {A : Type} (computation : Throws A) : Prop := ∃ value, computation = .ok value

section Returns

variable {A B : Type}

theorem returns_pure (value : A) : Throws.Returns (pure value) := ⟨value, rfl⟩

theorem not_returns_error (exception : InvalidOperationException) : ¬ Throws.Returns (.error exception : Throws A) := by
  rintro ⟨_, ⟨⟩⟩

/-- Two computations return if the first does and the second does with its value. -/
theorem returns_bind {computation : Throws A} {next : A → Throws B} :
    Throws.Returns (computation >>= next) ↔ ∃ value, computation = .ok value ∧ Throws.Returns (next value) := by
  cases computation with
  | error exception =>
    refine iff_of_false (not_returns_error exception) ?_
    rintro ⟨_, ⟨⟩, -⟩
  | ok value =>
    constructor
    · exact fun hnext => ⟨value, rfl, hnext⟩
    · rintro ⟨_, ⟨⟩, hnext⟩
      exact hnext

theorem returns_map {computation : Throws A} {change : A → B} :
    Throws.Returns (change <$> computation) ↔ computation.Returns := by
  cases computation with
  | error exception => exact iff_of_false (not_returns_error exception) (not_returns_error exception)
  | ok value => exact iff_of_true ⟨change value, rfl⟩ ⟨value, rfl⟩

/-- A string is read exactly if it has a text. -/
theorem returns_GetText {string : JsonString} : string.GetText.Returns ↔ string.HasText := by
  cases htext : utf16_text string with
  | none => simp [JsonString.GetText, JsonString.HasText, htext, not_returns_error]
  | some text => simp [JsonString.GetText, JsonString.HasText, htext, Throws.Returns]

/-- A value is read exactly if it is null or a string that has a text. -/
theorem returns_GetString {element : JsonElement} : element.GetString.Returns ↔ element.Textual := by
  cases element with
  | string value => simp [JsonElement.GetString, JsonElement.Textual, returns_map, returns_GetText]
  | null => exact iff_of_true ⟨none, rfl⟩ trivial
  | _ => exact iff_of_false (not_returns_error _) id

end Returns

section Search

variable {unescapes : JsonString → String → Bool} {properties : List (JsonString × JsonElement)} {name : String}

theorem hasText_units (text : String) : JsonString.HasText (utf16_units text) := by simp [JsonString.HasText]

/-- The search begins with the last property. -/
theorem findable_append_singleton {key : JsonString} {value : JsonElement} :
    Findable unescapes (properties ++ [(key, value)]) name ↔
      key = utf16_units name ∨ (key.HasText ∨ unescapes key name = false) ∧ Findable unescapes properties name := by
  constructor
  · intro hfindable
    refine or_iff_not_imp_left.mpr fun hother => ⟨?_, ?_⟩
    · by_contra hstop
      obtain ⟨hwithout, hunescapes⟩ := not_or.mp hstop
      obtain ⟨found, hmem, -⟩ := hfindable properties key value [] rfl hwithout (Bool.not_eq_false _ ▸ hunescapes)
      cases hmem
    · rintro before other element after rfl hwithout hunescapes
      obtain ⟨found, hmem, hname⟩ := hfindable before other element (after ++ [(key, value)]) (by simp) hwithout
        hunescapes
      rcases List.mem_append.mp hmem with hafter | hlast
      · exact ⟨found, hafter, hname⟩
      · obtain rfl := List.mem_singleton.mp hlast
        exact absurd hname hother
  · rintro hfound before other element after hsplit hwithout hunescapes
    rcases List.eq_nil_or_concat after with rfl | ⟨inner, last, rfl⟩
    · obtain ⟨-, hlast⟩ := List.append_inj' hsplit rfl
      cases hlast
      rcases hfound with rfl | ⟨htext | hkept, -⟩
      · exact absurd (hasText_units name) hwithout
      · exact absurd htext hwithout
      · rw [hkept] at hunescapes
        cases hunescapes
    · rw [List.concat_eq_append, ← List.cons_append, ← List.append_assoc] at hsplit
      obtain ⟨hinner, hlast⟩ := List.append_inj' hsplit rfl
      cases hlast
      rcases hfound with hname | ⟨-, hfindable⟩
      · exact ⟨(key, value), by simp, hname⟩
      · obtain ⟨found, hmem, hname⟩ := hfindable before other element inner hinner hwithout hunescapes
        exact ⟨found, by simp [hmem], hname⟩

/-- Where nothing stops it, the search finds the last property with the name. -/
theorem find_property_of_findable (hfindable : Findable unescapes properties name) :
    find_property unescapes name properties.reverse = pure (property properties name) := by
  induction properties using List.reverseRecOn with
  | nil => rfl
  | append_singleton rest last ih =>
    obtain ⟨key, value⟩ := last
    rw [List.reverse_append, List.reverse_singleton, List.singleton_append, find_property, property,
      List.reverse_append, List.reverse_singleton, List.singleton_append]
    by_cases hname : key = utf16_units name
    · rw [if_pos hname, List.find?_cons_of_pos (by simpa using hname), Option.map_some]
    · obtain ⟨hpasses, hrest⟩ := (findable_append_singleton.mp hfindable).resolve_left hname
      have hgoes : ¬ (utf16_text key = none ∧ unescapes key name = true) := by
        rintro ⟨hwithout, hunescapes⟩
        rcases hpasses with htext | hkept
        · simp [JsonString.HasText, hwithout] at htext
        · simp [hkept] at hunescapes
      rw [if_neg hname, if_neg hgoes, ih hrest, List.find?_cons_of_neg (by simpa using hname)]
      rfl

/-- A search that returns is not stopped. -/
theorem findable_of_returns (hreturns : (find_property unescapes name properties.reverse).Returns) :
    Findable unescapes properties name := by
  induction properties using List.reverseRecOn with
  | nil =>
    intro before key value after hsplit
    simp at hsplit
  | append_singleton rest last ih =>
    obtain ⟨key, value⟩ := last
    rw [List.reverse_append, List.reverse_singleton, List.singleton_append, find_property] at hreturns
    refine findable_append_singleton.mpr (or_iff_not_imp_left.mpr fun hname => ?_)
    rw [if_neg hname] at hreturns
    by_cases hstop : utf16_text key = none ∧ unescapes key name = true
    · rw [if_pos hstop] at hreturns
      exact absurd hreturns (not_returns_error _)
    · rw [if_neg hstop] at hreturns
      refine ⟨or_iff_not_imp_left.mpr fun hwithout => ?_, ih hreturns⟩
      exact Bool.not_eq_true _ ▸ fun hunescapes => hstop ⟨Option.not_isSome_iff_eq_none.mp hwithout, hunescapes⟩

end Search

namespace ServerMessage

variable {unescapes : JsonString → String → Bool} {properties : List (JsonString × JsonElement)}

/-- A field is read exactly if it is found and has a text, or is absent. -/
theorem returns_Get {name : String} : (Get unescapes (.object properties) name).Returns ↔
    Findable unescapes properties name ∧ ∀ value, property properties name = some value → value.Textual := by
  by_cases hfindable : Findable unescapes properties name
  · have hfound := find_property_of_findable hfindable
    rw [and_iff_right hfindable, Get, TryGetProperty_object, hfound, pure_bind]
    cases property properties name with
    | none => simp [returns_pure]
    | some value => simp [returns_GetString]
  · refine iff_of_false (fun hreturns => ?_) fun hboth => hfindable hboth.1
    obtain ⟨value, hvalue, -⟩ := returns_bind.mp hreturns
    exact hfindable (findable_of_returns ⟨value, hvalue⟩)

/-- Users are read exactly if all their names and statuses have texts. -/
theorem returns_foldlM_SetUser {entries : List (JsonString × JsonElement)} {users : Dictionary} :
    (entries.foldlM SetUser users).Returns ↔ ∀ entry ∈ entries, entry.1.HasText ∧ entry.2.Textual := by
  induction entries generalizing users with
  | nil => exact iff_of_true (returns_pure users) (List.forall_mem_nil _)
  | cons entry rest ih =>
    rw [List.foldlM_cons, returns_bind, List.forall_mem_cons]
    constructor
    · rintro ⟨later, hset, hrest⟩
      rw [SetUser] at hset
      obtain ⟨username, husername, hstatus⟩ := returns_bind.mp ⟨later, hset⟩
      obtain ⟨status, hstatus, -⟩ := returns_bind.mp hstatus
      exact ⟨⟨returns_GetText.mp ⟨username, husername⟩, returns_GetString.mp ⟨status, hstatus⟩⟩, ih.mp hrest⟩
    · rintro ⟨⟨hname, hvalue⟩, hothers⟩
      obtain ⟨username, husername⟩ := returns_GetText.mpr hname
      obtain ⟨status, hstatus⟩ := returns_GetString.mpr hvalue
      refine ⟨users.set username (status.getD ""), ?_, ih.mpr hothers⟩
      rw [SetUser, husername, hstatus]
      rfl

/-- The list of users is read exactly if it has nothing but texts. -/
theorem returns_GetUsers : (GetUsers unescapes (.object properties)).Returns ↔ UsersTextual unescapes properties := by
  by_cases hfindable : Findable unescapes properties "users"
  · have hfound := find_property_of_findable hfindable
    rw [UsersTextual, and_iff_right hfindable, GetUsers, TryGetProperty_object, hfound, pure_bind]
    cases property properties "users" with
    | none => simp [returns_pure]
    | some users =>
      cases users with
      | object entries => simp [returns_foldlM_SetUser]
      | _ =>
        refine iff_of_false ?_ (by simp)
        simp [JsonElement.EnumerateObject, returns_bind]
  · refine iff_of_false (fun hreturns => ?_) fun hboth => hfindable hboth.1
    obtain ⟨value, hvalue, -⟩ := returns_bind.mp hreturns
    exact hfindable (findable_of_returns ⟨value, hvalue⟩)

/-- The message of an object with a type returns if all that it reads can be read. -/
theorem returns_Parse_of_type {JsonDocument_Parse : String → Option JsonElement} {line : String} {type : JsonElement}
    (hparse : JsonDocument_Parse line = some (.object properties))
    (hfound : find_property unescapes "type" properties.reverse = pure (some type)) :
    (Parse unescapes JsonDocument_Parse line).Returns ↔ type.Textual ∧
      (∀ name ∈ text_fields type.text, Findable unescapes properties name ∧
        ∀ value, property properties name = some value → value.Textual) ∧
      (lists_users type.text → UsersTextual unescapes properties) := by
  rw [Parse, hparse]
  dsimp only
  rw [TryGetProperty_object, hfound, pure_bind]
  dsimp only
  by_cases htextual : type.Textual
  · obtain ⟨value, hvalue, htext⟩ : ∃ value, type.GetString = .ok value ∧ value.getD "" = type.text := by
      cases type with
      | string value =>
        obtain ⟨text, htext⟩ := Option.isSome_iff_exists.mp htextual
        refine ⟨some text, ?_, ?_⟩
        · rw [JsonElement.GetString, JsonString.GetText, htext]
          rfl
        · rw [JsonElement.text, htext]
      | null => exact ⟨none, rfl, rfl⟩
      | _ => exact htextual.elim
    rw [hvalue, and_iff_right htextual]
    change Throws.Returns (pure value >>= fun value => _) ↔ _
    rw [pure_bind, htext]
    generalize type.text = name
    have hget : ∀ name, (∃ value, Get unescapes (.object properties) name = .ok value) ↔ _ := fun name => returns_Get
    split
    all_goals simp [returns_bind, returns_map, returns_pure, returns_Get, returns_GetUsers, hget, text_fields,
      lists_users]
    -- Only the types that `Parse` does not know are left.
    rintro (rfl | rfl) <;> contradiction
  · refine iff_of_false (fun hreturns => htextual ?_) fun hall => htextual hall.1
    obtain ⟨value, hvalue, -⟩ := returns_bind.mp hreturns
    exact returns_GetString.mp ⟨value, hvalue⟩

/-- The message of an object returns if its type is found and all can be read. -/
theorem returns_Parse_of_object {JsonDocument_Parse : String → Option JsonElement} {line : String}
    (hparse : JsonDocument_Parse line = some (.object properties)) :
    (Parse unescapes JsonDocument_Parse line).Returns ↔ WellKinded unescapes (.object properties) := by
  have hobject : WellKinded unescapes (.object properties) ↔ Findable unescapes properties "type" ∧
      ∀ type, property properties "type" = some type → type.Textual ∧
        (∀ name ∈ text_fields type.text, Findable unescapes properties name ∧
          ∀ value, property properties name = some value → value.Textual) ∧
        (lists_users type.text → UsersTextual unescapes properties) := by
    simp [WellKinded]
  rw [hobject]
  by_cases hfindable : Findable unescapes properties "type"
  · have hfound := find_property_of_findable hfindable
    rw [and_iff_right hfindable]
    cases htype : property properties "type" with
    | none =>
      refine iff_of_true ⟨none, ?_⟩ (by simp)
      rw [Parse, hparse]
      dsimp only
      rw [TryGetProperty_object, hfound, htype]
      rfl
    | some type => simp [returns_Parse_of_type hparse (hfound.trans (congrArg _ htype))]
  · refine iff_of_false (fun hreturns => ?_) fun hboth => hfindable hboth.1
    rw [Parse, hparse] at hreturns
    obtain ⟨value, hvalue, -⟩ := returns_bind.mp hreturns
    exact hfindable (findable_of_returns ⟨value, hvalue⟩)

/-- A line is parsed without an exception exactly if its document has the right
kinds. -/
theorem returns_Parse_iff {JsonDocument_Parse : String → Option JsonElement} {line : String} :
    (Parse unescapes JsonDocument_Parse line).Returns ↔
      ∀ root, JsonDocument_Parse line = some root → WellKinded unescapes root := by
  cases hparse : JsonDocument_Parse line with
  | none =>
    refine iff_of_true ⟨none, ?_⟩ (by simp)
    rw [Parse, hparse]
    rfl
  | some root =>
    simp only [Option.some.injEq, forall_eq']
    cases root with
    | object properties => exact returns_Parse_of_object hparse
    | _ =>
      refine iff_of_false ?_ (by simp [WellKinded])
      rintro ⟨message, hok⟩
      rw [Parse, hparse] at hok
      cases hok

end ServerMessage

section Lines

variable {unescapes : JsonString → String → Bool} {JsonDocument_Parse : String → Option JsonElement} {line : String}
  {lines : List String}

/-- What is shown for a line: the message in it, or the line itself. -/
inductive Reports (unescapes : JsonString → String → Bool) (JsonDocument_Parse : String → Option JsonElement)
    (line : String) : Controller.Shown → Prop where
  | invalid (hnull : ServerMessage.Parse unescapes JsonDocument_Parse line = .ok none) :
    Reports unescapes JsonDocument_Parse line (.ShowInvalidMessage line)
  | message (message : ServerMessage) (hparsed : ServerMessage.Parse unescapes JsonDocument_Parse line = .ok (some message)) :
    Reports unescapes JsonDocument_Parse line (.Display message)

/-- Every line that is not empty is reported, and then the end of the connection. -/
def ReportsAll (unescapes : JsonString → String → Bool) (JsonDocument_Parse : String → Option JsonElement)
    (lines : List String) : Prop :=
  ∃ shown, Controller.ReceiveLoopAsync unescapes JsonDocument_Parse lines = (shown ++ [.ShowServerClosed], none) ∧
    List.Forall₂ (Reports unescapes JsonDocument_Parse) (lines.filter fun line => line.length ≠ 0) shown

theorem ReceiveLoopAsync_of_ok {message : Option ServerMessage} (lines : List String) (hline : line.length ≠ 0)
    (hok : ServerMessage.Parse unescapes JsonDocument_Parse line = .ok message) :
    ∃ shown, Reports unescapes JsonDocument_Parse line shown ∧
      Controller.ReceiveLoopAsync unescapes JsonDocument_Parse (line :: lines) =
        (shown :: (Controller.ReceiveLoopAsync unescapes JsonDocument_Parse lines).1,
          (Controller.ReceiveLoopAsync unescapes JsonDocument_Parse lines).2) := by
  rw [Controller.ReceiveLoopAsync, if_neg hline, hok]
  cases message with
  | none => exact ⟨_, .invalid hok, rfl⟩
  | some message => exact ⟨_, .message message hok, rfl⟩

/-- All lines are reported exactly if none of them throws. -/
theorem reportsAll_iff :
    ReportsAll unescapes JsonDocument_Parse lines ↔ ∀ line ∈ lines, line.length ≠ 0 →
      (ServerMessage.Parse unescapes JsonDocument_Parse line).Returns := by
  induction lines with
  | nil => exact iff_of_true ⟨[], rfl, .nil⟩ (List.forall_mem_nil _)
  | cons line rest ih =>
    rw [List.forall_mem_cons, ← ih]
    by_cases hempty : line.length = 0
    · have hskip : Controller.ReceiveLoopAsync unescapes JsonDocument_Parse (line :: rest) =
          Controller.ReceiveLoopAsync unescapes JsonDocument_Parse rest := by
        rw [Controller.ReceiveLoopAsync, if_pos hempty]
      rw [and_iff_right fun hline => absurd hempty hline, ReportsAll, hskip, List.filter_cons_of_neg (by simp [hempty])]
      rfl
    · rw [ReportsAll, List.filter_cons_of_pos (by simp [hempty])]
      cases hparse : ServerMessage.Parse unescapes JsonDocument_Parse line with
      | error exception =>
        refine iff_of_false ?_ fun hboth => ?_
        · rintro ⟨shown, hloop, -⟩
          rw [Controller.ReceiveLoopAsync, if_neg hempty, hparse] at hloop
          cases (Prod.mk.inj hloop).2
        · obtain ⟨message, hok⟩ := hboth.1 hempty
          cases hok
      | ok message =>
        obtain ⟨first, hfirst, hloop⟩ := ReceiveLoopAsync_of_ok rest hempty hparse
        rw [hloop, and_iff_right fun _ => ⟨message, rfl⟩]
        constructor
        · rintro ⟨shown, hshown, hreports⟩
          obtain ⟨hlist, hend⟩ := Prod.mk.inj hshown
          cases hreports with
          | cons hreport hothers =>
            exact ⟨_, Prod.ext (List.cons.inj hlist).2 hend, hothers⟩
        · rintro ⟨shown, hshown, hreports⟩
          rw [hshown]
          exact ⟨first :: shown, rfl, .cons hfirst hreports⟩

end Lines

/-- Neither the parser nor the loop that calls it is left by an exception, as long
as every document that arrives has texts where texts are read and objects where
objects are. -/
theorem parser_returns_iff (unescapes : JsonString → String → Bool)
    (JsonDocument_Parse : String → Option JsonElement) :
    (∀ line, (ServerMessage.Parse unescapes JsonDocument_Parse line).Returns ↔
      ∀ root, JsonDocument_Parse line = some root → WellKinded unescapes root) ∧
    ∀ lines, ReportsAll unescapes JsonDocument_Parse lines ↔
      ∀ line ∈ lines, line.length ≠ 0 → ∀ root, JsonDocument_Parse line = some root → WellKinded unescapes root := by
  refine ⟨fun line => ServerMessage.returns_Parse_iff, fun lines => reportsAll_iff.trans ?_⟩
  simp only [ServerMessage.returns_Parse_iff]

/-- A string that is a surrogate without its partner is not well-kinded. -/
example (unescapes : JsonString → String → Bool) :
    ¬ WellKinded unescapes (.object [("type", .string [0xD800])]) := by
  rintro ⟨properties, hobject, -, htype⟩
  cases hobject
  obtain ⟨htextual, -⟩ := htype (.string [0xD800]) (by simp [property])
  exact absurd htextual (by decide : ¬ JsonString.HasText [0xD800])

/-- A document that is an array. -/
theorem array_escapes_parsing :
    ¬ ∀ (unescapes : JsonString → String → Bool) (JsonDocument_Parse : String → Option JsonElement) (line : String),
      (ServerMessage.Parse unescapes JsonDocument_Parse line).Returns := by
  intro halways
  obtain ⟨message, hok⟩ := halways (fun _ _ => true) (fun text => if text = "[]" then some (.array []) else none) "[]"
  rw [ServerMessage.Parse, if_pos rfl] at hok
  cases hok

end ojalvo
