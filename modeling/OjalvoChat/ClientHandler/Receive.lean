import OjalvoChat.ClientHandler.Client
import OjalvoChat.Library.Segments

namespace ojalvo

/-- A line as `message_buffer_extract` hands it out: its bytes and the length
that is reported for them. -/
abbrev ExtractedLine := List UInt8 × Nat

/-- The inner loop of `handle_client`: the lines that it extracts, in order, and
the buffer from which nothing more can be extracted. -/
def extract_lines (buffer : MessageBuffer) : List ExtractedLine × MessageBuffer :=
  match _hextract : message_buffer_extract buffer SERVER_BUFFER_SIZE with
  | none => ([], buffer)
  | some (message, message_length, rest) =>
    let (lines, left) := extract_lines rest
    ((message, message_length) :: lines, left)
termination_by buffer.data.length
decreasing_by exact (length_lt_of_extract _hextract).2

/-- The outer loop, over the chunks that `recv` returns. It breaks off at a chunk
that `message_buffer_append` refuses. -/
def receive_lines (buffer : MessageBuffer) (chunks : List (List UInt8)) : Option (List ExtractedLine × MessageBuffer) :=
  match chunks with
  | [] => some ([], buffer)
  | chunk :: rest => do
    let received ← message_buffer_append buffer chunk
    let (lines, left) := extract_lines received
    let (more, final) ← receive_lines left rest
    return (lines ++ more, final)

/-- The lines handled one after another, as long as the thread goes on. -/
def handle_lines (cJSON_Parse : CString → Option CJson) (net : Net) (client_fd : Fd) (lines : List ExtractedLine)
    (world : World) : Option World :=
  match lines with
  | [] => some world
  | line :: rest =>
    match (handle_line cJSON_Parse net line.1 line.2 client_fd).run world with
    | .ok true after => handle_lines cJSON_Parse net client_fd rest after
    | _ => none

section Extract

variable {buffer rest : MessageBuffer} {message : List UInt8} {message_length : Nat}

theorem extract_lines_of_none (hextract : message_buffer_extract buffer SERVER_BUFFER_SIZE = none) :
    extract_lines buffer = ([], buffer) := by
  unfold extract_lines
  split
  · rfl
  · rename_i hsome
    rw [hextract] at hsome
    cases hsome

theorem extract_lines_of_some
    (hextract : message_buffer_extract buffer SERVER_BUFFER_SIZE = some (message, message_length, rest)) :
    extract_lines buffer = ((message, message_length) :: (extract_lines rest).1, (extract_lines rest).2) := by
  rw [extract_lines]
  split
  · rename_i hnone
    rw [hextract] at hnone
    cases hnone
  · rename_i hsome
    rw [hextract] at hsome
    cases hsome
    rfl

/-- The inner loop splits what is in the buffer at the newlines. -/
theorem extract_lines_eq (buffer : MessageBuffer) :
    (extract_lines buffer).1 = (segments 10 buffer.data).1.map (fun line => (line, line.length)) ∧
      (extract_lines buffer).2.data = (segments 10 buffer.data).2 := by
  cases hextract : message_buffer_extract buffer SERVER_BUFFER_SIZE with
  | none =>
    have hfree := message_buffer_extract_eq_none_iff.mp hextract
    rw [extract_lines_of_none hextract, Segments.segments_of_free hfree]
    exact ⟨rfl, rfl⟩
  | some extracted =>
    obtain ⟨message, message_length, rest⟩ := extracted
    have hshorter := (length_lt_of_extract hextract).2
    obtain ⟨hdata, hlength, hfree⟩ := message_buffer_extract_eq_some hextract
    obtain ⟨hlines, hleft⟩ := extract_lines_eq rest
    rw [extract_lines_of_some hextract, hdata, Segments.segments_cons hfree]
    exact ⟨by rw [hlines, hlength, List.map_cons], hleft⟩
termination_by buffer.data.length

end Extract

section Steps

variable {cJSON_Parse : CString → Option CJson} {net : Net} {client_fd : Fd}

/-- The steps of `handle_client`, taken in a row. -/
def client_steps (cJSON_Parse : CString → Option CJson) (net : Net) (client_fd : Fd) (steps : List ClientStep)
    (state : World × ClientThread) : Option (World × ClientThread) :=
  steps.foldlM (fun state step => handle_client cJSON_Parse net client_fd step state.1 state.2) state

theorem client_steps_append {first second : List ClientStep} {state between : World × ClientThread}
    (hfirst : client_steps cJSON_Parse net client_fd first state = some between) :
    client_steps cJSON_Parse net client_fd (first ++ second) state =
      client_steps cJSON_Parse net client_fd second between := by
  unfold client_steps at hfirst ⊢
  rw [List.foldlM_append, hfirst]
  rfl

theorem handle_lines_append {first second : List ExtractedLine} {world after : World}
    (hlines : handle_lines cJSON_Parse net client_fd (first ++ second) world = some after) :
    ∃ between, handle_lines cJSON_Parse net client_fd first world = some between ∧
      handle_lines cJSON_Parse net client_fd second between = some after := by
  induction first generalizing world with
  | nil => exact ⟨world, rfl, hlines⟩
  | cons line rest ih =>
    rw [List.cons_append, handle_lines] at hlines
    split at hlines
    · rename_i next hhandled
      obtain ⟨between, hrest, hsecond⟩ := ih hlines
      exact ⟨between, by rw [handle_lines, hhandled]; exact hrest, hsecond⟩
    · cases hlines

/-- The turns of the inner loop, until extraction fails. -/
theorem client_steps_extract (buffer : MessageBuffer) {world after : World}
    (hlines : handle_lines cJSON_Parse net client_fd (extract_lines buffer).1 world = some after) :
    client_steps cJSON_Parse net client_fd (List.replicate ((extract_lines buffer).1.length + 1) .extract)
      (world, .extracting buffer) = some (after, .receiving (extract_lines buffer).2) := by
  cases hextract : message_buffer_extract buffer SERVER_BUFFER_SIZE with
  | none =>
    rw [extract_lines_of_none hextract] at hlines ⊢
    cases hlines
    simp [client_steps, handle_client, hextract]
  | some extracted =>
    obtain ⟨message, message_length, rest⟩ := extracted
    have hshorter := (length_lt_of_extract hextract).2
    rw [extract_lines_of_some hextract] at hlines ⊢
    rw [handle_lines] at hlines
    rw [List.length_cons, List.replicate_succ, client_steps, List.foldlM_cons]
    simp only [handle_client, hextract]
    split at hlines
    · rename_i between hhandled
      simp only [hhandled, Option.bind_eq_bind, Option.bind_some]
      exact client_steps_extract rest hlines
    · cases hlines
termination_by buffer.data.length

/-- As long as the lines let the thread go on, `handle_client` runs through the
two loops. -/
theorem client_steps_receive {buffer final : MessageBuffer} {chunks : List (List UInt8)} {lines : List ExtractedLine}
    {world after : World}
    (hchunks : ∀ chunk ∈ chunks, 0 < chunk.length ∧ chunk.length ≤ RECV_CHUNK_SIZE)
    (hreceive : receive_lines buffer chunks = some (lines, final))
    (hlines : handle_lines cJSON_Parse net client_fd lines world = some after) :
    ∃ steps, client_steps cJSON_Parse net client_fd steps (world, .receiving buffer) =
      some (after, .receiving final) := by
  induction chunks generalizing buffer lines world with
  | nil =>
    cases hreceive
    cases hlines
    exact ⟨[], rfl⟩
  | cons chunk rest ih =>
    rw [receive_lines] at hreceive
    obtain ⟨received, happend, hreceive⟩ := Option.bind_eq_some_iff.mp hreceive
    obtain ⟨⟨more, last⟩, hrest, heq⟩ := Option.bind_eq_some_iff.mp hreceive
    cases heq
    obtain ⟨between, hfirst, hsecond⟩ := handle_lines_append hlines
    obtain ⟨steps, hsteps⟩ := ih (fun other hother => hchunks other (List.mem_cons_of_mem chunk hother)) hrest hsecond
    have hreceived : client_steps cJSON_Parse net client_fd [.receive chunk] (world, .receiving buffer) =
        some (world, .extracting received) := by
      simp [client_steps, handle_client, hchunks chunk List.mem_cons_self, client_receive, happend]
    refine ⟨[.receive chunk] ++ (List.replicate ((extract_lines received).1.length + 1) .extract ++ steps), ?_⟩
    rw [client_steps_append hreceived, client_steps_append (client_steps_extract received hfirst)]
    exact hsteps

end Steps

end ojalvo
