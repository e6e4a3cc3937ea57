/-
Which timers are live, and how passes are numbered.

# The newest timer

A timer that is not cancelled is that of the newest pass, and the scheduler
holds it (`Armed`). Scheduling cancels what is held before it makes the
next timer; cancelling leaves nothing held and takes up a number, so that
no timer is that of the newest pass any more. This is so whatever stage the
held timer has come to: one that has run, or that is being rendered while
its own render schedules anew, is cancelled all the same.

# Exactly which

So a timer is live exactly if its pass is the newest and it has not woken
(`mem_live_iff`). Numbers are given out in order, which is why there is at
most one such timer, and why a number that was passed over is not given out
later.
-/
import FreeLabel.Proofs.Scheduler.Delivery

namespace FreeLabel.Scheduler

variable {ρ : Type} {s s' : Scheduler} {a : Action ρ} {as later : List (Action ρ)}
  {seen now more : List (Event ρ)} {g : Nat}

-- ============================================================== numbers

/-- The number that was given out. -/
def Event.number? : Event ρ → Option Nat
  | scheduled g => some g
  | _ => none

/-- The numbers that were given out, in that order. -/
def numbers (es : List (Event ρ)) : List Nat := es.filterMap Event.number?

theorem numbers_append (es fs : List (Event ρ)) : numbers (es ++ fs) = numbers es ++ numbers fs :=
  List.filterMap_append

theorem mem_numbers {es : List (Event ρ)} : g ∈ numbers es ↔ .scheduled g ∈ es := by
  constructor
  · intro hg
    obtain ⟨e, he, hnumber⟩ := List.mem_filterMap.1 hg
    cases e with
    | scheduled k =>
        cases hnumber
        exact he
    | turnedAway source => cases hnumber
    | rendering k source => cases hnumber
    | delivered k result => cases hnumber
  · exact fun he => List.mem_filterMap.2 ⟨_, he, rfl⟩

/-- What a step does to the timers, and whether it gives out a number. -/
theorem step_cases (hstep : s.step a = some (s', now)) :
    (∃ source, s.closed = false ∧ s' = s.taken source ∧ numbers now = [s.generation + 1])
      ∨ numbers now = []
        ∧ (s' = s.cancel ∨ s' = s.shut ∨ s' = s ∨ ∃ g stage, s' = s.setStage g stage) := by
  cases ha : a.pass? with
  | some g =>
      obtain ⟨t, stage, -, hs', hnow, -⟩ := step_own hstep ha
      refine .inr ⟨?_, .inr (.inr (.inr ⟨g, stage, hs'⟩))⟩
      refine List.filterMap_eq_nil_iff.2 fun e he => ?_
      cases e with
      | scheduled k => cases hnow _ he
      | turnedAway source => rfl
      | rendering k source => rfl
      | delivered k result => rfl
  | none =>
      cases a with
      | schedule source =>
          obtain ⟨-, hs', rfl⟩ | ⟨hopen, hs', rfl⟩ := step_schedule.1 hstep
          · exact .inr ⟨rfl, .inr (.inr (.inl hs'))⟩
          · exact .inl ⟨source, hopen, hs', rfl⟩
      | cancel =>
          obtain ⟨hs', rfl⟩ := step_cancel.1 hstep
          exact .inr ⟨rfl, .inl hs'⟩
      | shut =>
          obtain ⟨hs', rfl⟩ := step_shut.1 hstep
          exact .inr ⟨rfl, .inr (.inl hs')⟩
      | wake k => cases ha
      | start k => cases ha
      | finish k result => cases ha
      | fail k => cases ha

-- ========================================================== the invariant

/-- The timers of a scheduler that has given out the numbers `ns`. -/
structure Armed (ns : List Nat) (s : Scheduler) : Prop where
  /-- There is one for each number. -/
  numbers : s.timers.map Timer.generation = ns
  increasing : ns.Pairwise (· < ·)
  bounded : ∀ g ∈ ns, g ≤ s.generation
  /-- What is not cancelled is held. -/
  held : ∀ t ∈ s.timers, t.cancelled = false → s.held = some t.generation
  /-- What is held is the newest. -/
  newest : ∀ g, s.held = some g → g = s.generation
  /-- The newest is not cancelled. -/
  uncancelled : ∀ t ∈ s.timers, t.generation = s.generation → t.cancelled = false

theorem armed_start : Armed [] {} where
  numbers := rfl
  increasing := .nil
  bounded := by simp
  held := by simp
  newest := by simp
  uncancelled := by simp

variable {ns : List Nat}

theorem mem_modifyTimer {f : Timer → Timer} {t : Timer} (h : t ∈ (s.modifyTimer g f).timers) :
    ∃ u ∈ s.timers, t = if u.generation = g then f u else u := by
  obtain ⟨u, hu, rfl⟩ := List.mem_map.1 h
  exact ⟨u, hu, rfl⟩

theorem map_generation_modifyTimer {f : Timer → Timer}
    (hf : ∀ t, (f t).generation = t.generation) (s : Scheduler) (g : Nat) :
    (s.modifyTimer g f).timers.map Timer.generation = s.timers.map Timer.generation := by
  unfold modifyTimer
  simp only [List.map_map]
  refine List.map_congr_left fun t _ => ?_
  simp only [Function.comp_apply]
  split
  next => exact hf t
  next => rfl

theorem map_generation_cancelHeld (s : Scheduler) :
    s.cancelHeld.timers.map Timer.generation = s.timers.map Timer.generation := by
  unfold cancelHeld
  split
  next => rfl
  next g hheld =>
    exact map_generation_modifyTimer (f := fun t => { t with cancelled := true }) (fun _ => rfl) s g

/-- Once what is held is cancelled, all timers are. -/
theorem Armed.cancelled_of_mem (h : Armed ns s) {t : Timer} (ht : t ∈ s.cancelHeld.timers) :
    t.cancelled = true := by
  unfold cancelHeld at ht
  split at ht
  next hheld =>
    cases hcancelled : t.cancelled with
    | true => rfl
    | false =>
        rw [h.held t ht hcancelled] at hheld
        cases hheld
  next g hheld =>
    obtain ⟨u, hu, rfl⟩ := mem_modifyTimer ht
    split
    next => rfl
    next hother =>
      cases hcancelled : u.cancelled with
      | true => rfl
      | false =>
          rw [h.held u hu hcancelled] at hheld
          exact absurd (Option.some.inj hheld) hother

theorem Armed.setStage (h : Armed ns s) (g : Nat) (stage : Stage) : Armed ns (s.setStage g stage) := by
  have hmem : ∀ t ∈ (s.setStage g stage).timers, ∃ u ∈ s.timers,
      t.generation = u.generation ∧ t.cancelled = u.cancelled := by
    intro t ht
    obtain ⟨u, hu, rfl⟩ := mem_modifyTimer ht
    refine ⟨u, hu, ?_⟩
    split <;> exact ⟨rfl, rfl⟩
  refine ⟨?_, h.increasing, h.bounded, ?_, h.newest, ?_⟩
  · rw [← h.numbers]
    exact map_generation_modifyTimer (f := fun t => { t with stage := stage }) (fun _ => rfl) s g
  · intro t ht hcancelled
    obtain ⟨u, hu, hgeneration, hsame⟩ := hmem t ht
    rw [hgeneration]
    exact h.held u hu (hsame ▸ hcancelled)
  · intro t ht hnewest
    obtain ⟨u, hu, hgeneration, hsame⟩ := hmem t ht
    rw [hsame]
    exact h.uncancelled u hu (hgeneration ▸ hnewest)

theorem Armed.cancel (h : Armed ns s) : Armed ns s.cancel := by
  have hnumbers : s.cancel.timers.map Timer.generation = ns :=
    (map_generation_cancelHeld s).trans h.numbers
  refine ⟨hnumbers, h.increasing, fun g hg => Nat.le_succ_of_le (h.bounded g hg), ?_, nofun, ?_⟩
  · intro t ht hcancelled
    rw [h.cancelled_of_mem ht] at hcancelled
    cases hcancelled
  · -- the number that was taken up is none of a timer
    intro t ht hnewest
    have hmem : t.generation ∈ ns := hnumbers ▸ List.mem_map_of_mem ht
    have hle := h.bounded _ hmem
    have hnew : t.generation = s.generation + 1 := hnewest
    omega

theorem Armed.taken (h : Armed ns s) (source : Text) :
    Armed (ns ++ [s.generation + 1]) (s.taken source) := by
  have hlt : ∀ g ∈ ns, g < s.generation + 1 := fun g hg => Nat.lt_succ_of_le (h.bounded g hg)
  have hold := (map_generation_cancelHeld s).trans h.numbers
  refine ⟨?numbers, ?increasing, ?bounded, ?held, ?newest, ?uncancelled⟩
  case numbers => rw [Scheduler.taken, List.map_append, hold]; rfl
  case increasing =>
    refine List.pairwise_append.2 ⟨h.increasing, List.pairwise_singleton _ _, ?_⟩
    intro g hg k hk
    rw [List.mem_singleton.1 hk]
    exact hlt g hg
  case bounded =>
    intro g hg
    rcases List.mem_append.1 hg with hg | hg
    · exact Nat.le_of_lt (hlt g hg)
    · exact Nat.le_of_eq (List.mem_singleton.1 hg)
  case held =>
    intro t ht hcancelled
    rcases List.mem_append.1 ht with ht | ht
    · rw [h.cancelled_of_mem ht] at hcancelled
      cases hcancelled
    · rw [List.mem_singleton.1 ht]
      rfl
  case newest =>
    intro g hg
    exact (Option.some.inj hg).symm
  case uncancelled =>
    intro t ht hnewest
    rcases List.mem_append.1 ht with ht | ht
    · have hmem : t.generation ∈ ns := hold ▸ List.mem_map_of_mem ht
      have hlt := hlt _ hmem
      have hnew : t.generation = s.generation + 1 := hnewest
      omega
    · rw [List.mem_singleton.1 ht]

/-- The step lemma. -/
theorem Armed.step (h : Armed ns s) (hstep : s.step a = some (s', now)) :
    Armed (ns ++ Scheduler.numbers now) s' := by
  obtain ⟨source, -, rfl, hnow⟩ | ⟨hnow, hs'⟩ := step_cases hstep
  · rw [hnow]
    exact h.taken source
  · rw [hnow, List.append_nil]
    rcases hs' with rfl | rfl | rfl | ⟨g, stage, rfl⟩
    · exact h.cancel
    · exact ⟨h.numbers, h.increasing, h.bounded, h.held, h.newest, h.uncancelled⟩
    · exact h
    · exact h.setStage g stage

/-- The run lemma. -/
theorem Armed.run (h : Armed ns s) (hrun : s.run as = some (s', more)) :
    Armed (ns ++ Scheduler.numbers more) s' := by
  induction as generalizing ns s more with
  | nil =>
      cases hrun
      simpa [Scheduler.numbers] using h
  | cons a as ih =>
      obtain ⟨mid, now, rest, hstep, hrest, rfl⟩ := run_cons.1 hrun
      rw [numbers_append, ← List.append_assoc]
      exact ih (h.step hstep) hrest

theorem armed_of_run (hrun : Scheduler.run {} as = some (s, seen)) :
    Armed (Scheduler.numbers seen) s := by
  simpa using armed_start.run hrun

-- =========================================================== which are live

/-- Timers are told apart by their numbers. -/
theorem Armed.timer?_of_mem (h : Armed ns s) {t : Timer} (ht : t ∈ s.timers) :
    s.timer? t.generation = some t := by
  have hincreasing := h.increasing
  rw [← h.numbers, List.pairwise_map] at hincreasing
  obtain ⟨before, after, htimers⟩ := List.append_of_mem ht
  rw [htimers] at hincreasing
  refine List.find?_eq_some_iff_append.2 ⟨by simp, before, after, htimers, fun u hu => ?_⟩
  have hlt := (List.pairwise_append.1 hincreasing).2.2 u hu t List.mem_cons_self
  simpa using Nat.ne_of_lt hlt

theorem mem_live : g ∈ s.live ↔ ∃ t ∈ s.timers, t.isLive = true ∧ t.generation = g := by
  simp [live, and_assoc]

theorem isLive_iff {t : Timer} : t.isLive = true ↔ t.cancelled = false ∧ t.stage = .waiting := by
  simp [Timer.isLive]

/-- What is live is held, and the newest. -/
theorem Armed.held_of_mem_live (h : Armed ns s) (hg : g ∈ s.live) :
    s.held = some g ∧ g = s.generation := by
  obtain ⟨t, ht, hlive, rfl⟩ := mem_live.1 hg
  have hheld := h.held t ht (isLive_iff.1 hlive).1
  exact ⟨hheld, h.newest _ hheld⟩

theorem Armed.length_live_le (h : Armed ns s) : s.live.length ≤ 1 := by
  have hincreasing : s.live.Pairwise (· < ·) := by
    have hall := h.increasing
    rw [← h.numbers] at hall
    exact hall.sublist (List.filter_sublist.map _)
  cases hlive : s.live with
  | nil => exact Nat.zero_le 1
  | cons g gs =>
      cases gs with
      | nil => exact Nat.le_refl 1
      | cons k ks =>
          rw [hlive] at hincreasing
          have hlt : g < k := List.rel_of_pairwise_cons hincreasing List.mem_cons_self
          have hg := (h.held_of_mem_live (g := g) (by simp [hlive])).2
          have hk := (h.held_of_mem_live (g := k) (by simp [hlive])).2
          omega

/-- A pass that has not come yet has done nothing. -/
theorem actionsOf_of_lt (hrun : Scheduler.run {} as = some (s, seen)) (hg : s.generation < g) :
    actionsOf g as = [] := by
  have hcoherent := coherent_of_run hrun
  cases ht : s.timer? g with
  | none => exact (hcoherent.unknown g ht).1
  | some t =>
      have hle := hcoherent.bounded g t ht
      omega

theorem wake_mem_actionsOf : .wake g ∈ actionsOf g as ↔ .wake g ∈ as := by
  simp [actionsOf, Action.pass?]

/-- A timer is live exactly if its pass is the newest and it has not run. -/
theorem mem_live_iff (hrun : Scheduler.run {} as = some (s, seen)) :
    g ∈ s.live ↔ .scheduled g ∈ seen ∧ g = s.generation ∧ .wake g ∉ as := by
  have harmed := armed_of_run hrun
  have hcourses := (coherent_of_run hrun).courses
  rw [← mem_numbers, ← harmed.numbers, ← wake_mem_actionsOf]
  constructor
  · intro hg
    obtain ⟨t, ht, hlive, rfl⟩ := mem_live.1 hg
    refine ⟨List.mem_map_of_mem ht, (harmed.held_of_mem_live hg).2, ?_⟩
    have hcourse := hcourses _ t (harmed.timer?_of_mem ht)
    rw [(isLive_iff.1 hlive).2] at hcourse
    exact hcourse.not_woken
  · rintro ⟨hmem, hnewest, hwake⟩
    obtain ⟨t, ht, rfl⟩ := List.mem_map.1 hmem
    have hcourse := hcourses _ t (harmed.timer?_of_mem ht)
    exact mem_live.2 ⟨t, ht, isLive_iff.2 ⟨harmed.uncancelled t ht hnewest,
      hcourse.waiting_of_not_woken hwake⟩, rfl⟩

/-- A number that is given out is above all of before, and an open
scheduler gives it out. -/
theorem lt_of_scheduled (hrun : s.run later = some (s', more)) (hg : .scheduled g ∈ more) :
    s.generation < g ∧ s.closed = false := by
  obtain ⟨before, mid, mid', first, now, a, hbefore, hstep, hnow⟩ := exists_step_of_mem hrun hg
  obtain ⟨hle, hclosed⟩ := run_monotone hbefore
  have hnumber := mem_numbers.2 hnow
  obtain ⟨source, hopen, -, hnumbers⟩ | ⟨hnumbers, -⟩ := step_cases hstep
  · rw [hnumbers, List.mem_singleton] at hnumber
    exact ⟨hnumber ▸ Nat.lt_succ_of_le hle, hclosed hopen⟩
  · rw [hnumbers] at hnumber
    cases hnumber

/-- What has just been scheduled is what is live. -/
theorem live_taken (hrun : Scheduler.run {} as = some (s, seen)) (hopen : s.closed = false)
    (source : Text) : (s.taken source).live = [s.generation + 1] := by
  have hstep : s.step (.schedule source : Action ρ)
      = some (s.taken source, [.scheduled (s.generation + 1)]) :=
    step_schedule.2 (.inr ⟨hopen, rfl, rfl⟩)
  have hnext := run_concat hrun hstep
  have hlive : s.generation + 1 ∈ (s.taken source).live := by
    refine (mem_live_iff hnext).2 ⟨by simp, rfl, ?_⟩
    rw [← wake_mem_actionsOf, actionsOf_append, actionsOf_of_lt hrun (Nat.lt_succ_self _)]
    simp [actionsOf, Action.pass?]
  have hlength := (armed_of_run hnext).length_live_le
  obtain ⟨g, hg⟩ := List.length_eq_one_iff.1 (Nat.le_antisymm hlength (List.length_pos_of_mem hlive))
  rw [hg] at hlive ⊢
  rw [List.mem_singleton.1 hlive]

/-- In every state that can be reached, at most one timer is live; it is
the one that is held, and that of the newest pass. Numbers are given out in
order, and none that has been given out or passed over is given out later.
An open scheduler takes a source, under the next number, and then that
timer alone is live; a closed one turns it away and stays as it is. -/
theorem one_timer_live (hrun : Scheduler.run {} as = some (s, seen)) :
    s.live.length ≤ 1
      ∧ (∀ g ∈ s.live, s.held = some g ∧ g = s.generation)
      ∧ s.timers.map Timer.generation = numbers seen
      ∧ (numbers seen).Pairwise (· < ·)
      ∧ (∀ g ∈ numbers seen, g ≤ s.generation)
      ∧ (∀ later s' more, s.run later = some (s', more) →
          ∀ g ∈ numbers (more : List (Event ρ)), s.generation < g)
      ∧ (s.closed = false → ∀ source, ∃ s', s.schedule source = .ok (s', s.generation + 1)
          ∧ s'.generation = s.generation + 1 ∧ s'.live = [s.generation + 1])
      ∧ (s.closed = true → ∀ source, s.schedule source = .error {}
          ∧ s.step (.schedule source : Action ρ) = some (s, [.turnedAway source])) := by
  have harmed := armed_of_run hrun
  refine ⟨harmed.length_live_le, fun g hg => harmed.held_of_mem_live hg, harmed.numbers,
    harmed.increasing, harmed.bounded, ?later, ?opened, ?closed⟩
  case later =>
    intro later s' more hlater g hg
    exact (lt_of_scheduled hlater (mem_numbers.1 hg)).1
  case opened =>
    intro hopen source
    refine ⟨s.taken source, ?_, rfl, live_taken hrun hopen source⟩
    simp [schedule, hopen, taken]
  case closed =>
    intro hclosed source
    exact ⟨by simp [schedule, hclosed], step_schedule.2 (.inl ⟨hclosed, rfl, rfl⟩)⟩

/-- A pass that is rendered schedules another, which is cancelled before
the next edit. -/
theorem one_timer_live_after_cancel :
    ∃ s : Scheduler, ∃ seen : List (Event Nat),
      run {} [.schedule ['a'], .wake 1, .start 1, .schedule ['b'], .finish 1 10, .cancel,
          .schedule ['c']] = some (s, seen)
        ∧ s.live.length ≤ 1
        ∧ (∀ g ∈ s.live, s.held = some g ∧ g = s.generation)
        ∧ s.live = [4]
        ∧ (numbers seen).Pairwise (· < ·)
        ∧ numbers seen = [1, 2, 4] := by
  have hrun : run {} [.schedule ['a'], .wake 1, .start 1, .schedule ['b'], .finish 1 10, .cancel,
        .schedule ['c']]
      = some ({ timers := [
                  { generation := 1, source := ['a'], cancelled := true, stage := .over },
                  { generation := 2, source := ['b'], cancelled := true },
                  { generation := 4, source := ['c'] }]
                held := some 4, generation := 4 },
          ([.scheduled 1, .rendering 1 ['a'], .scheduled 2, .scheduled 4] : List (Event Nat))) :=
    rfl
  obtain ⟨hone, hheld, -, hincreasing, -⟩ := one_timer_live hrun
  exact ⟨_, _, hrun, hone, hheld, rfl, hincreasing, rfl⟩

end FreeLabel.Scheduler
