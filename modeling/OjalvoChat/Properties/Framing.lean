import OjalvoChat.ClientHandler.Receive

namespace ojalvo

/-- The receive loop does not notice where the stream was cut: as long as no
line outgrows the buffer, it extracts the lines of the whole stream and keeps
its unfinished rest. -/
theorem receive_lines_eq (buffer : MessageBuffer) (hfree : 10 ∉ buffer.data) (chunks : List (List UInt8))
    (hchunks : ∀ chunk ∈ chunks, chunk.length ≤ RECV_CHUNK_SIZE)
    (hsegments : ∀ segment, segment <:+: buffer.data ++ chunks.flatten → 10 ∉ segment →
      segment.length ≤ SERVER_BUFFER_SIZE - RECV_CHUNK_SIZE) :
    ∃ final, receive_lines buffer chunks =
        some ((segments 10 (buffer.data ++ chunks.flatten)).1.map (fun line => (line, line.length)), final) ∧
      final.data = (segments 10 (buffer.data ++ chunks.flatten)).2 := by
  induction chunks generalizing buffer with
  | nil =>
    refine ⟨buffer, ?_, ?_⟩
    · simp [receive_lines, Segments.segments_of_free hfree]
    · simp [Segments.segments_of_free hfree]
  | cons chunk rest ih =>
    have hunfinished : buffer.data.length ≤ SERVER_BUFFER_SIZE - RECV_CHUNK_SIZE :=
      hsegments buffer.data (List.infix_append' [] buffer.data _) hfree
    have hchunk : chunk.length ≤ RECV_CHUNK_SIZE := hchunks chunk List.mem_cons_self
    have hroom : ¬ buffer.data.length + chunk.length > SERVER_BUFFER_SIZE := by
      have hsize : RECV_CHUNK_SIZE ≤ SERVER_BUFFER_SIZE := by decide
      omega
    obtain ⟨received, happend, hreceived⟩ : ∃ received, message_buffer_append buffer chunk = some received ∧
        received.data = buffer.data ++ chunk := by
      rw [message_buffer_append, dif_neg hroom]
      exact ⟨_, rfl, rfl⟩
    obtain ⟨hlines, hleft⟩ := extract_lines_eq received
    have hstream : buffer.data ++ (chunk :: rest).flatten = received.data ++ rest.flatten := by
      rw [hreceived, List.flatten_cons, List.append_assoc]
    have hsplit := Segments.segments_append 10 received.data rest.flatten
    have hsuffix : (extract_lines received).2.data ++ rest.flatten <:+: buffer.data ++ (chunk :: rest).flatten := by
      obtain ⟨complete, hcomplete⟩ : (segments 10 received.data).2 <:+ received.data :=
        ⟨_, Segments.flatMap_segments 10 received.data⟩
      rw [hstream, hleft]
      exact List.IsSuffix.isInfix ⟨complete, by rw [← List.append_assoc, hcomplete]⟩
    obtain ⟨final, hrest, hfinal⟩ := ih (extract_lines received).2
      (by rw [hleft]; exact (Segments.free_of_segments 10 received.data).2)
      (fun other hother => hchunks other (List.mem_cons_of_mem chunk hother))
      (fun segment hwithin => hsegments segment (hwithin.trans hsuffix))
    rw [hleft] at hrest hfinal
    refine ⟨final, ?_, ?_⟩
    · rw [receive_lines, happend, hstream, hsplit, List.map_append, ← hlines]
      simp only [Option.bind_eq_bind, Option.bind_some, hrest]
      rfl
    · rw [hstream, hsplit]
      exact hfinal

/-- However the stream arrives in chunks, no append is refused, and the lines
that are extracted, with the lengths reported for them, are the segments of the
stream that a newline ends. What follows the last newline stays in the buffer. -/
theorem lines_do_not_depend_on_segmentation (chunks : List (List UInt8))
    (hchunks : ∀ chunk ∈ chunks, 1 ≤ chunk.length ∧ chunk.length ≤ RECV_CHUNK_SIZE)
    (hsegments : ∀ segment, segment <:+: chunks.flatten → 10 ∉ segment →
      segment.length ≤ SERVER_BUFFER_SIZE - RECV_CHUNK_SIZE) :
    ∃ lines final, receive_lines message_buffer_init chunks = some (lines, final) ∧
      chunks.flatten = (lines.flatMap fun line => line.1 ++ [10]) ++ final.data ∧
      (∀ line ∈ lines, 10 ∉ line.1 ∧ line.2 = line.1.length) ∧ 10 ∉ final.data ∧
      (lines.map Prod.fst, final.data) = segments 10 chunks.flatten := by
  obtain ⟨final, hreceive, hfinal⟩ := receive_lines_eq message_buffer_init List.not_mem_nil chunks
    (fun chunk hchunk => (hchunks chunk hchunk).2) hsegments
  have hdata : message_buffer_init.data ++ chunks.flatten = chunks.flatten := rfl
  rw [hdata] at hreceive hfinal
  obtain ⟨hfree, htail⟩ := Segments.free_of_segments 10 chunks.flatten
  refine ⟨_, final, hreceive, ?_, ?_, ?_, ?_⟩
  · have hwhole := Segments.flatMap_segments 10 chunks.flatten
    rw [List.flatMap_map, hfinal]
    exact hwhole.symm
  · intro line hline
    obtain ⟨segment, hsegment, rfl⟩ := List.mem_map.mp hline
    exact ⟨hfree segment hsegment, rfl⟩
  · rw [hfinal]
    exact htail
  · rw [List.map_map, hfinal]
    simp [Function.comp_def]

/-- Two chunks with a line and a half in each. -/
theorem lines_do_not_depend_on_segmentation_across_chunks :
    ∃ lines final, receive_lines message_buffer_init [[104, 105, 10, 111], [108, 97, 10, 33]] = some (lines, final) ∧
      [104, 105, 10, 111, 108, 97, 10, 33] = (lines.flatMap fun line => line.1 ++ [10]) ++ final.data ∧
      (∀ line ∈ lines, 10 ∉ line.1 ∧ line.2 = line.1.length) ∧ 10 ∉ final.data ∧
      (lines.map Prod.fst, final.data) = ([[104, 105], [111, 108, 97]], [33]) :=
  lines_do_not_depend_on_segmentation [[104, 105, 10, 111], [108, 97, 10, 33]] (by decide) (by
    intro segment hwithin _
    have hlength := hwithin.length_le
    have hsize : 8 ≤ SERVER_BUFFER_SIZE - RECV_CHUNK_SIZE := by decide
    exact Nat.le_trans hlength hsize)

end ojalvo
