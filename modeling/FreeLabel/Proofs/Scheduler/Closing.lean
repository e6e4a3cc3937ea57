/-
What a close leaves behind.

Closing is two steps: it cancels, and then it shuts the scheduler. Each is
taken at once, but anybody may ask for something in between. What is
scheduled there is neither cancelled nor turned away, and its timer goes on
after the close (`close_leaves_timer`). That it is the only way is what the
exact condition says: every timer of before the close is cancelled by its
first step, and after its second there is no other.

A timer that is left does no harm. Its pass finds the scheduler closed when
it wakes, and is over.
-/
import FreeLabel.Proofs.Scheduler.Timers

namespace FreeLabel.Scheduler

variable {ρ : Type} {s s' s'' : Scheduler} {past between later : List (Action ρ)}
  {seen during more : List (Event ρ)} {g : Nat}

/-- A closed scheduler only turns away. -/
theorem turnedAway_of_closed (hclosed : s.closed = true) (hrun : s.run later = some (s', more))
    {e : Event ρ} (he : e ∈ more) : ∃ source, e = .turnedAway source := by
  cases e with
  | turnedAway source => exact ⟨source, rfl⟩
  | scheduled g =>
      have hopen := (lt_of_scheduled hrun he).2
      rw [hclosed] at hopen
      cases hopen
  | delivered g result =>
      have hopen := (le_generation_of_delivered hrun he).2
      rw [hclosed] at hopen
      cases hopen
  | rendering g source =>
      obtain ⟨before, mid, mid', first, now, a, hbefore, hstep, hnow⟩ :=
        exists_step_of_mem hrun he
      have hcurrent := (step_event hstep hnow rfl).1
      have hopen := (run_monotone hbefore).2 (isCurrent_iff.1 hcurrent).1
      rw [hclosed] at hopen
      cases hopen

/-- A timer that is live after closing was live before, and nothing has come
of its pass since. -/
theorem mem_live_of_closed (hpast : run {} past = some (s, seen)) (hclosed : s.closed = true)
    (hlater : s.run later = some (s', more)) :
    g ∈ s'.live ↔ g ∈ s.live ∧ g = s'.generation ∧ .wake g ∉ later := by
  have hall : run {} (past ++ later) = some (s', seen ++ more) :=
    run_append.2 ⟨s, seen, more, hpast, hlater, rfl⟩
  have hle := (run_monotone hlater).1
  rw [mem_live_iff hall, mem_live_iff hpast, List.mem_append, List.mem_append]
  constructor
  · rintro ⟨hscheduled | hscheduled, hnewest, hwake⟩
    · have hbounded := (armed_of_run hpast).bounded g (mem_numbers.2 hscheduled)
      have hold : g = s.generation := by omega
      exact ⟨⟨hscheduled, hold, fun h => hwake (.inl h)⟩, hnewest, fun h => hwake (.inr h)⟩
    · obtain ⟨source, hturned⟩ := turnedAway_of_closed hclosed hlater hscheduled
      cases hturned
  · rintro ⟨⟨hscheduled, -, hpast⟩, hnewest, hlater⟩
    exact ⟨.inl hscheduled, hnewest, fun h => h.elim hpast hlater⟩

/-- What is live after a run with a cancel at its front was scheduled in
that run. -/
theorem mem_live_of_cancelled (hpast : run {} past = some (s, seen))
    (hrun : s.run (.cancel :: between) = some (s', during)) :
    g ∈ s'.live ↔ .scheduled g ∈ during ∧ g = s'.generation ∧ .wake g ∉ between := by
  have hall : run {} (past ++ .cancel :: between) = some (s', seen ++ during) :=
    run_append.2 ⟨s, seen, during, hpast, hrun, rfl⟩
  obtain ⟨mid, now, rest, hcancel, hrest, rfl⟩ := run_cons.1 hrun
  obtain ⟨rfl, rfl⟩ := step_cancel.1 hcancel
  have hle : s.generation + 1 ≤ s'.generation := (run_monotone hrest).1
  rw [mem_live_iff hall, List.nil_append, List.mem_append, List.mem_append]
  constructor
  · rintro ⟨hscheduled | hscheduled, hnewest, hwake⟩
    · have hbounded := (armed_of_run hpast).bounded g (mem_numbers.2 hscheduled)
      omega
    · exact ⟨hscheduled, hnewest, fun h => hwake (.inr (List.mem_cons_of_mem _ h))⟩
  · rintro ⟨hscheduled, hnewest, hwake⟩
    refine ⟨.inr hscheduled, hnewest, ?_⟩
    rintro (h | h)
    · -- the pass was not there before
      have hnothing := actionsOf_of_lt hpast (g := g) (by omega)
      rw [← wake_mem_actionsOf, hnothing] at h
      cases h
    · rcases List.mem_cons.1 h with h | h
      · cases h
      · exact hwake h

/-- A close that nobody comes between leaves nothing live. -/
theorem live_of_close (hpast : run {} past = some (s, seen))
    (hclose : s.run (Request.close.actions : List (Action ρ)) = some (s', during)) :
    s'.live = [] := by
  refine List.eq_nil_iff_forall_not_mem.2 fun g hg => ?_
  have hscheduled := ((mem_live_of_cancelled hpast hclose).1 hg).1
  cases hclose
  cases hscheduled

/-- A close, with whatever comes between its two steps. No timer is live any
more, then or later, exactly if each pass that was scheduled between them
has woken there, or was overtaken by another request. And at any time after
a close, what is live was live at its end, is that of the newest number,
and has not woken; nothing is scheduled, rendered or delivered. -/
theorem close_ends_timers_iff (hpast : run {} past = some (s, seen))
    (hclose : s.run (.cancel :: between ++ [.shut]) = some (s', during)) :
    ((∀ later s'' more, s'.run (later : List (Action ρ)) = some (s'', more) → s''.live = [])
        ↔ ∀ g, .scheduled g ∈ during → g = s'.generation → .wake g ∈ between)
      ∧ ∀ later s'' more, s'.run (later : List (Action ρ)) = some (s'', more) →
          (∀ g, g ∈ s''.live ↔ g ∈ s'.live ∧ g = s''.generation ∧ .wake g ∉ later)
            ∧ ∀ e ∈ more, ∃ source, e = .turnedAway source := by
  have hclosed : s'.closed = true := by
    obtain ⟨mid, first, last, -, hshut, -⟩ := run_append.1 hclose
    obtain ⟨mid', now, rest, hstep, hrest, -⟩ := run_cons.1 hshut
    obtain ⟨rfl, -⟩ := step_shut.1 hstep
    cases hrest
    rfl
  have hall : run {} (past ++ (.cancel :: between ++ [.shut])) = some (s', seen ++ during) :=
    run_append.2 ⟨s, seen, during, hpast, hclose, rfl⟩
  have hlive : ∀ g, g ∈ s'.live
      ↔ .scheduled g ∈ during ∧ g = s'.generation ∧ .wake g ∉ between := by
    intro g
    rw [mem_live_of_cancelled hpast hclose]
    simp
  refine ⟨⟨?woken, ?ended⟩, ?_⟩
  case woken =>
    intro hended g hscheduled hnewest
    have hnone : g ∉ s'.live := by
      rw [hended [] s' [] rfl]
      exact List.not_mem_nil
    refine Classical.byContradiction fun hwake => ?_
    exact hnone ((hlive g).2 ⟨hscheduled, hnewest, hwake⟩)
  case ended =>
    intro hwoken later s'' more hlater
    refine List.eq_nil_iff_forall_not_mem.2 fun g hg => ?_
    obtain ⟨hleft, -⟩ := (mem_live_of_closed hall hclosed hlater).1 hg
    obtain ⟨hscheduled, hnewest, hwake⟩ := (hlive g).1 hleft
    exact hwake (hwoken g hscheduled hnewest)
  · intro later s'' more hlater
    exact ⟨fun g => mem_live_of_closed hall hclosed hlater,
      fun e he => turnedAway_of_closed hclosed hlater he⟩

/-- A render closes, and the next edit comes before the scheduler is shut.
Another close that has begun meanwhile cancels it. -/
theorem close_ends_timers_of_second_close :
    ∃ s s' : Scheduler, ∃ seen during : List (Event Nat),
      run {} [.schedule ['a'], .wake 1, .start 1] = some (s, seen)
        ∧ s.run (.cancel :: [.schedule ['b'], .cancel] ++ [.shut]) = some (s', during)
        ∧ .scheduled 3 ∈ during
        ∧ ∀ later s'' more, s'.run (later : List (Action Nat)) = some (s'', more) →
            s''.live = [] := by
  have hpast : run {} [.schedule ['a'], .wake 1, .start 1]
      = some ({ timers := [{ generation := 1, source := ['a'], stage := .rendering }]
                held := some 1, generation := 1 },
          ([.scheduled 1, .rendering 1 ['a']] : List (Event Nat))) := rfl
  have hclose : run
      { timers := [{ generation := 1, source := ['a'], stage := .rendering }]
        held := some 1, generation := 1 }
      (.cancel :: [.schedule ['b'], .cancel] ++ [.shut])
      = some ({ timers := [
                  { generation := 1, source := ['a'], cancelled := true, stage := .rendering },
                  { generation := 3, source := ['b'], cancelled := true }]
                generation := 4, closed := true },
          ([.scheduled 3] : List (Event Nat))) := rfl
  obtain ⟨hended, -⟩ := close_ends_timers_iff hpast hclose
  exact ⟨_, _, _, _, hpast, hclose, List.mem_singleton_self _, hended.2 (by simp)⟩

/-- An edit comes between the two steps of a close. Its timer is live when
the close returns. -/
theorem close_leaves_timer :
    ¬ ∀ (past between later : List (Action Nat)) (s s' s'' : Scheduler)
        (seen during more : List (Event Nat)),
      run {} past = some (s, seen) → s.run (.cancel :: between ++ [.shut]) = some (s', during) →
      s'.run later = some (s'', more) → s''.live = [] := by
  intro hquiet
  have hempty := hquiet [.schedule ['a']] [.schedule ['b']] [] _ _ _ _ _ _ rfl rfl rfl
  exact absurd hempty (by decide)

end FreeLabel.Scheduler
