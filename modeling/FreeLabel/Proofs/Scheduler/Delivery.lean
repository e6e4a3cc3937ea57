/-
Only the newest pass is rendered, and only the newest pass is delivered.

Passes render outside the scheduler, so several may be under way at once
and end in any order, while edits, cancels and closes come in between,
also from the renders themselves. What keeps a stale result back is the
second look that a pass takes when its render ends: by then its number is
the newest, or it never will be again, because numbers only grow and
closing lasts (`le_generation_of_delivered`). That no pass is delivered
twice is a matter of its course: a delivered pass is over.
-/
import FreeLabel.Proofs.Scheduler.Course

namespace FreeLabel.Scheduler

variable {ρ : Type} {s s' s'' : Scheduler} {a : Action ρ} {past later : List (Action ρ)}
  {seen now more : List (Event ρ)}

/-- Numbers only grow, and closing lasts. -/
theorem step_monotone (hstep : s.step a = some (s', now)) :
    s.generation ≤ s'.generation ∧ (s.closed = true → s'.closed = true) := by
  cases ha : a.pass? with
  | some k =>
      obtain ⟨t, stage, -, rfl, -⟩ := step_own hstep ha
      exact ⟨Nat.le_refl _, id⟩
  | none =>
      obtain ⟨-, ⟨source, -, hopen, rfl⟩ | rfl | rfl | ⟨rfl, -⟩⟩ := step_request hstep ha
      · exact ⟨Nat.le_succ _, fun hclosed => absurd hclosed (by simp [hopen])⟩
      · refine ⟨Nat.le_succ _, ?_⟩
        unfold cancel cancelHeld
        cases s.held <;> exact id
      · exact ⟨Nat.le_refl _, fun _ => rfl⟩
      · exact ⟨Nat.le_refl _, id⟩

/-- So it is over a run. -/
theorem run_monotone (hrun : s.run later = some (s', more)) :
    s.generation ≤ s'.generation ∧ (s'.closed = false → s.closed = false) := by
  induction later generalizing s more with
  | nil =>
      cases hrun
      exact ⟨Nat.le_refl _, id⟩
  | cons a later ih =>
      obtain ⟨mid, now, rest, hstep, hrest, rfl⟩ := run_cons.1 hrun
      obtain ⟨hle, hclosed⟩ := step_monotone hstep
      obtain ⟨hle', hopen⟩ := ih hrest
      refine ⟨Nat.le_trans hle hle', fun hs' => ?_⟩
      cases hs : s.closed with
      | false => rfl
      | true =>
          have hmid := hopen hs'
          rw [hclosed hs] at hmid
          cases hmid

/-- What is seen in a run is seen at a step of it. -/
theorem exists_step_of_mem {e : Event ρ} (hrun : s.run later = some (s', more))
    (he : e ∈ more) :
    ∃ (before : List (Action ρ)) (mid mid' : Scheduler) (first now : List (Event ρ))
        (a : Action ρ), s.run before = some (mid, first)
      ∧ mid.step a = some (mid', now) ∧ e ∈ now := by
  induction later generalizing s more with
  | nil =>
      cases hrun
      cases he
  | cons a later ih =>
      obtain ⟨mid, now, rest, hstep, hrest, rfl⟩ := run_cons.1 hrun
      rcases List.mem_append.1 he with he | he
      · exact ⟨[], s, mid, [], now, a, rfl, hstep, he⟩
      · obtain ⟨before, mid', last, first, now', b, hbefore, hb, he⟩ := ih hrest he
        exact ⟨a :: before, mid', last, now ++ first, now', b,
          run_cons.2 ⟨mid, now, first, hstep, hbefore, rfl⟩, hb, he⟩

/-- What a run delivers is no older than the newest pass at its start, and
a closed scheduler delivers nothing. -/
theorem le_generation_of_delivered (hrun : s.run later = some (s', more)) {g : Nat}
    {result : ρ} (hmem : .delivered g result ∈ more) : s.generation ≤ g ∧ s.closed = false := by
  obtain ⟨before, mid, mid', first, now, a, hbefore, hstep, hnow⟩ := exists_step_of_mem hrun hmem
  obtain ⟨hle, hclosed⟩ := run_monotone hbefore
  obtain ⟨hcurrent, -⟩ := step_event hstep hnow rfl
  obtain ⟨hopen, rfl⟩ := isCurrent_iff.1 hcurrent
  exact ⟨hle, hclosed hopen⟩

/-- A request that takes effect overtakes all passes there are. -/
theorem not_delivered_of_request (hstep : s.step a = some (s', now)) (ha : a.pass? = none)
    (heffect : ∀ source, .turnedAway source ∉ now) (hlater : s'.run later = some (s'', more))
    {g : Nat} (hg : g ≤ s.generation) (result : ρ) : .delivered g result ∉ more := by
  intro hmem
  obtain ⟨hle, hopen⟩ := le_generation_of_delivered hlater hmem
  obtain ⟨-, ⟨source, -, -, rfl⟩ | rfl | rfl | ⟨-, -, source, hturned⟩⟩ :=
    step_request hstep ha
  · have hgeneration : s.generation + 1 ≤ g := hle
    omega
  · have hgeneration : s.generation + 1 ≤ g := hle
    omega
  · cases hopen
  · exact heffect source hturned

/-- At any step of any run: a pass begins to render only if it is the
newest and the scheduler is open, and it is the one that the last request
asked for; a result is delivered only under the same condition, and only
if its pass was rendered for that request's source. Over the whole run the
numbers of delivered passes strictly increase, so that none is delivered
twice; and once a request has taken effect, no pass of before is
delivered any more. -/
theorem delivers_newest_only (hpast : run {} past = some (s, seen))
    (hstep : s.step a = some (s', now)) (hlater : s'.run later = some (s'', more)) :
    (∀ g source, .rendering g source ∈ now →
        s.closed = false ∧ g = s.generation ∧ Newest past g source)
      ∧ (∀ g result, .delivered g result ∈ now →
          s.closed = false ∧ g = s.generation
            ∧ ∃ source, Newest past g source ∧ .rendering g source ∈ seen)
      ∧ (deliveries (seen ++ now ++ more)).Pairwise (· < ·)
      ∧ (a.pass? = none → (∀ source, .turnedAway source ∉ now) →
          ∀ g ≤ s.generation, ∀ result, .delivered g result ∉ more) := by
  have hcoherent := coherent_of_run hpast
  refine ⟨?_, ?_, ((hcoherent.step hstep).run hlater).increasing, ?_⟩
  · intro g source hmem
    obtain ⟨hcurrent, -, t, ht, heq | ⟨-, result, heq⟩⟩ := step_event hstep hmem rfl
    · cases heq
      obtain ⟨hopen, hg⟩ := isCurrent_iff.1 hcurrent
      exact ⟨hopen, hg, hcoherent.newest g t ht hcurrent⟩
    · cases heq
  · intro g result hmem
    obtain ⟨hcurrent, -, t, ht, heq | ⟨hstage, -⟩⟩ := step_event hstep hmem rfl
    · cases heq
    obtain ⟨hopen, hg⟩ := isCurrent_iff.1 hcurrent
    have hrendered : .rendering g t.source ∈ eventsOf g seen := by
      have hcourse := hcoherent.courses g t ht
      rw [hstage] at hcourse
      rw [hcourse.told_of_stage]
      exact List.mem_cons_self
    exact ⟨hopen, hg, t.source, hcoherent.newest g t ht hcurrent,
      (List.mem_filter.1 hrendered).1⟩
  · intro ha heffect g hg result
    exact not_delivered_of_request hstep ha heffect hlater hg result

/-- An edit made while another is rendered. The first render ends last, and
its result is dropped. -/
theorem delivers_second_edit_only :
    ∃ s s' s'' : Scheduler, ∃ seen more : List (Event Nat),
      seen = [.scheduled 1, .rendering 1 ['a']]
        ∧ run {} [.schedule ['a'], .wake 1, .start 1] = some (s, seen)
        ∧ s.step (.schedule ['b'] : Action Nat) = some (s', [.scheduled 2])
        ∧ s'.run [.wake 2, .start 2, .finish 2 20, .finish 1 10] = some (s'', more)
        ∧ more = [.rendering 2 ['b'], .delivered 2 20]
        ∧ (∀ result, .delivered 1 result ∉ more)
        ∧ (deliveries (seen ++ [.scheduled 2] ++ more)).Pairwise (· < ·) := by
  have hpast : run {} [.schedule ['a'], .wake 1, .start 1]
      = some ({ timers := [{ generation := 1, source := ['a'], stage := .rendering }]
                held := some 1, generation := 1 },
          ([.scheduled 1, .rendering 1 ['a']] : List (Event Nat))) := rfl
  have hlater : run
      { timers := [{ generation := 1, source := ['a'], cancelled := true, stage := .rendering },
          { generation := 2, source := ['b'] }]
        held := some 2, generation := 2 }
      [.wake 2, .start 2, .finish 2 20, .finish 1 10]
      = some ({ timers := [
                  { generation := 1, source := ['a'], cancelled := true, stage := .over },
                  { generation := 2, source := ['b'], stage := .over }]
                held := some 2, generation := 2 },
          ([.rendering 2 ['b'], .delivered 2 20] : List (Event Nat))) := rfl
  obtain ⟨-, -, hincreasing, hovertaken⟩ :=
    delivers_newest_only hpast (a := .schedule ['b']) rfl hlater
  exact ⟨_, _, _, _, _, rfl, hpast, rfl, hlater, rfl,
    hovertaken rfl (by simp) 1 (Nat.le_refl _), hincreasing⟩

end FreeLabel.Scheduler
