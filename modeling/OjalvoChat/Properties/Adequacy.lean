import OjalvoChat.Concurrency.Serial

namespace ojalvo

/-- The threads of the connections and the server that processes one event at a time
are the same thing as long as the handlers do not overlap: whatever the network
does, runs of the threads without overlap, seen while nobody is at work, are the runs
of the server on events that could come when they came. -/
theorem undisturbed_run_iff_server_run {net : Net} {happened : List Event} {world : World} :
    (∃ history pool, PoolRun net history pool ∧ Undisturbed history ∧ pool.Quiescent ∧ pool.world = world ∧
      events history = happened) ↔
    ∃ serial, ServerRun net serial world ∧ Admissible serial ∧ serial.map Prod.snd = happened := by
  constructor
  · rintro ⟨history, pool, hrun, hundisturbed, hquiet, rfl, rfl⟩
    obtain ⟨serial, hrest⟩ := exists_serial_run hrun hundisturbed hquiet
    exact ⟨serial, hrest.serial_run, hrest.admissible, hrest.events_eq⟩
  · rintro ⟨serial, hrun, hadmissible, rfl⟩
    obtain ⟨history, pool, hpool, hundisturbed, hrest, rfl⟩ := exists_undisturbed_run hrun hadmissible
    exact ⟨history, pool, hpool, hundisturbed, hrest.quiet, rfl, hrest.events_eq.symm⟩

end ojalvo
