/-
The last edit is never lost, and a failed pass leaves no trace.

# The last edit

Once nobody asks for anything any more, the newest pass stays the newest:
the steps of other passes do not touch its timer, nor what the scheduler
holds (`Kept.run`). So both looks that it takes at the scheduler let it
through, and of the courses that a pass can go there remain those on which
it renders and, unless the render fails, delivers.

# A failed pass

`Scheduler.forget` puts the timer of a pass back to the stage in which it
was made. A step of another pass, or a request, does the same whether that
pass has run or not (`step_forget`), and a step of the pass itself is
undone. So leaving out the steps of a pass makes a run of what remains,
with the same events but for those of the pass. This holds of every pass;
of one that failed it says that all goes on as if it had not run, since
its only event is that it began.
-/
import FreeLabel.Proofs.Scheduler.Course

namespace FreeLabel.Scheduler

variable {ρ : Type} {s s' : Scheduler} {a : Action ρ} {as : List (Action ρ)}
  {seen now more : List (Event ρ)} {g h : Nat} {source : Text}

-- =========================================================== the last edit

/-- The pass `g` for `source` is the newest of an open scheduler, and the
scheduler holds its timer, which was not cancelled. -/
structure Kept (g : Nat) (source : Text) (s : Scheduler) : Prop where
  timer : ∃ t, s.timer? g = some t ∧ t.source = source ∧ t.cancelled = false
  held : s.held = some g
  current : s.isCurrent g = true

theorem kept_taken (hopen : s.closed = false) (hnew : s.timer? (s.generation + 1) = none) :
    Kept (s.generation + 1) source (s.taken source) where
  timer := by
    refine ⟨{ generation := s.generation + 1, source := source }, ?_, rfl, rfl⟩
    rw [timer?_taken hnew, if_pos rfl]
  held := rfl
  current := by
    rw [isCurrent_iff]
    refine ⟨?_, rfl⟩
    unfold taken cancelHeld
    cases s.held <;> exact hopen

/-- A step of any pass keeps it so. If it is one of this pass, it goes
through. -/
theorem Kept.step (hkept : Kept g source s) (hstep : s.step a = some (s', now))
    (ha : a.pass? ≠ none) :
    Kept g source s'
      ∧ (a = .start g → .rendering g source ∈ now)
      ∧ ∀ result, a = .finish g result → .delivered g result ∈ now := by
  obtain ⟨k, hk⟩ := Option.ne_none_iff_exists'.1 ha
  obtain ⟨t, ht, hsource, hcancelled⟩ := hkept.timer
  refine ⟨?_, ?_, ?_⟩
  · obtain ⟨u, stage, -, rfl, -⟩ := step_own hstep hk
    refine ⟨⟨_, by rw [timer?_setStage, ht, Option.map_some], ?_, ?_⟩, hkept.held, hkept.current⟩
    · split <;> exact hsource
    · split <;> exact hcancelled
  · rintro rfl
    obtain ⟨u, hu, -, ⟨-, -, rfl⟩ | ⟨hstale, -⟩⟩ := step_start.1 hstep
    · rw [ht] at hu
      cases hu
      rw [hsource]
      exact List.mem_cons_self
    · rw [hkept.current] at hstale
      cases hstale
  · rintro result rfl
    obtain ⟨u, -, -, -, ⟨-, rfl⟩ | ⟨hstale, -⟩⟩ := step_finish.1 hstep
    · exact List.mem_cons_self
    · rw [hkept.current] at hstale
      cases hstale

/-- So does a run without requests. -/
theorem Kept.run (hkept : Kept g source s) (hrun : s.run as = some (s', more))
    (has : ∀ a ∈ as, a.pass? ≠ none) :
    Kept g source s'
      ∧ (.start g ∈ as → .rendering g source ∈ more)
      ∧ ∀ result, .finish g result ∈ as → .delivered g result ∈ more := by
  induction as generalizing s more with
  | nil =>
      cases hrun
      exact ⟨hkept, nofun, nofun⟩
  | cons a as ih =>
      obtain ⟨mid, now, rest, hstep, hrest, rfl⟩ := run_cons.1 hrun
      obtain ⟨hmid, hstart, hfinish⟩ := hkept.step hstep (has a List.mem_cons_self)
      obtain ⟨hlast, hstart', hfinish'⟩ :=
        ih hmid hrest fun b hb => has b (List.mem_cons_of_mem a hb)
      refine ⟨hlast, ?_, ?_⟩
      · intro hmem
        rcases List.mem_cons.1 hmem with heq | hmem
        · exact List.mem_append_left _ (hstart heq.symm)
        · exact List.mem_append_right _ (hstart' hmem)
      · intro result hmem
        rcases List.mem_cons.1 hmem with heq | hmem
        · exact List.mem_append_left _ (hfinish result heq.symm)
        · exact List.mem_append_right _ (hfinish' result hmem)

variable {start mid : Scheduler} {past since : List (Action ρ)}

/-- Where the pass asked for last is when there was no other request: it is
kept, and of the courses it can go on, it is on one on which both its looks
at the scheduler let it through. -/
theorem last_kept (hpast : run {} past = some (start, seen))
    (hasked : start.step (.schedule source : Action ρ) = some (mid, [.scheduled g]))
    (hrun : mid.run since = some (s, more)) (hsince : ∀ a ∈ since, a.pass? ≠ none) :
    Kept g source s
      ∧ (∀ t, s.timer? g = some t →
          Course g source t.stage (actionsOf g since) (eventsOf g (seen ++ .scheduled g :: more)))
      ∧ (.start g ∈ since → .rendering g source ∈ more)
      ∧ ∀ result, .finish g result ∈ since → .delivered g result ∈ more := by
  have hcoherent := coherent_of_run hpast
  obtain ⟨-, -, hevents⟩ | ⟨hopen, rfl, hevents⟩ := step_schedule.1 hasked
  · cases hevents
  obtain rfl : g = start.generation + 1 := by
    cases hevents
    rfl
  have hnew := hcoherent.timer?_next
  have htaken : Kept (start.generation + 1) source (start.taken source) := kept_taken hopen hnew
  obtain ⟨hkept, hstart, hfinish⟩ := htaken.run hrun hsince
  refine ⟨hkept, ?_, hstart, hfinish⟩
  intro t ht
  obtain ⟨u, hu, hsource, -⟩ := hkept.timer
  obtain rfl : u = t := Option.some.inj (hu.symm.trans ht)
  have hcourse := ((hcoherent.step hasked).run hrun).courses _ u ht
  have hactions : actionsOf (start.generation + 1) (past ++ [.schedule source] ++ since)
      = actionsOf (start.generation + 1) since := by
    rw [actionsOf_append, (histories_request past seen hasked rfl _).1,
      (hcoherent.unknown _ hnew).1, List.nil_append]
  rw [hactions, hsource, List.append_assoc] at hcourse
  exact hcourse

-- =========================================================== failed passes

/-- The scheduler as if a pass had not run. -/
def forget (s : Scheduler) (g : Nat) : Scheduler := s.setStage g .waiting

/-- Changes of timers are made in any order, if those of one timer are. -/
theorem modifyTimer_comm {f f' : Timer → Timer} (hf : ∀ t, (f t).generation = t.generation)
    (hf' : ∀ t, (f' t).generation = t.generation) (hcomm : h = g → ∀ t, f (f' t) = f' (f t)) :
    (s.modifyTimer h f).modifyTimer g f' = (s.modifyTimer g f').modifyTimer h f := by
  unfold modifyTimer
  simp only [List.map_map]
  congr 1
  refine List.map_congr_left fun t _ => ?_
  by_cases hh : t.generation = h
  · by_cases hg : t.generation = g
    · simp [hh, hf, hf', hg ▸ hh, hcomm (hh.symm.trans hg)]
    · simp [hh, hf, hh ▸ hg]
  · by_cases hg : t.generation = g
    · simp [hf', hg, hg ▸ hh]
    · simp [hh, hg]

/-- The stage of a pass does not outlast forgetting it. -/
theorem forget_setStage (s : Scheduler) (g : Nat) (stage : Stage) :
    (s.setStage g stage).forget g = s.forget g := by
  unfold forget setStage modifyTimer
  simp only [List.map_map]
  congr 1
  refine List.map_congr_left fun t _ => ?_
  by_cases ht : t.generation = g <;> simp [ht]

theorem setStage_forget (hne : h ≠ g) (stage : Stage) :
    (s.setStage h stage).forget g = (s.forget g).setStage h stage :=
  modifyTimer_comm (fun _ => rfl) (fun _ => rfl) fun heq => absurd heq hne

theorem cancelHeld_forget (s : Scheduler) (g : Nat) :
    s.cancelHeld.forget g = (s.forget g).cancelHeld := by
  have hheld : (s.forget g).held = s.held := rfl
  unfold cancelHeld
  rw [hheld]
  cases s.held with
  | none => rfl
  | some k => exact modifyTimer_comm (fun _ => rfl) (fun _ => rfl) fun _ _ => rfl

theorem cancel_forget (s : Scheduler) (g : Nat) : s.cancel.forget g = (s.forget g).cancel := by
  unfold cancel
  rw [← cancelHeld_forget]
  rfl

/-- A new timer waits anyway. -/
theorem taken_forget (s : Scheduler) (source : Text) (g : Nat) :
    (s.taken source).forget g = (s.forget g).taken source := by
  unfold taken
  rw [← cancelHeld_forget]
  unfold forget setStage modifyTimer
  simp

theorem timer?_forget (hne : h ≠ g) : (s.forget g).timer? h = s.timer? h := by
  unfold forget
  rw [timer?_setStage]
  simp [hne]

/-- What is no step of a pass is done in the same way if the pass had not
run. -/
theorem step_forget (hstep : s.step a = some (s', now)) (ha : a.pass? ≠ some g) :
    (s.forget g).step a = some (s'.forget g, now) := by
  cases a with
  | schedule source =>
      obtain ⟨hclosed, rfl, rfl⟩ | ⟨hopen, rfl, rfl⟩ := step_schedule.1 hstep
      · exact step_schedule.2 (.inl ⟨hclosed, rfl, rfl⟩)
      · exact step_schedule.2 (.inr ⟨hopen, taken_forget s source g, rfl⟩)
  | cancel =>
      obtain ⟨rfl, rfl⟩ := step_cancel.1 hstep
      exact step_cancel.2 ⟨cancel_forget s g, rfl⟩
  | shut =>
      obtain ⟨rfl, rfl⟩ := step_shut.1 hstep
      exact step_shut.2 ⟨rfl, rfl⟩
  | wake h =>
      have hne : h ≠ g := fun heq => ha (congrArg some heq)
      obtain ⟨t, ht, hstage, rfl, rfl⟩ := step_wake.1 hstep
      rw [← timer?_forget hne] at ht
      exact step_wake.2 ⟨t, ht, hstage, setStage_forget hne _, rfl⟩
  | start h =>
      have hne : h ≠ g := fun heq => ha (congrArg some heq)
      obtain ⟨t, ht, hstage, ⟨hcurrent, rfl, rfl⟩ | ⟨hstale, rfl, rfl⟩⟩ := step_start.1 hstep
      · rw [← timer?_forget hne] at ht
        exact step_start.2 ⟨t, ht, hstage, .inl ⟨hcurrent, setStage_forget hne _, rfl⟩⟩
      · rw [← timer?_forget hne] at ht
        exact step_start.2 ⟨t, ht, hstage, .inr ⟨hstale, setStage_forget hne _, rfl⟩⟩
  | finish h result =>
      have hne : h ≠ g := fun heq => ha (congrArg some heq)
      obtain ⟨t, ht, hstage, rfl, hnow⟩ := step_finish.1 hstep
      rw [← timer?_forget hne] at ht
      exact step_finish.2 ⟨t, ht, hstage, setStage_forget hne _, hnow⟩
  | fail h =>
      have hne : h ≠ g := fun heq => ha (congrArg some heq)
      obtain ⟨t, ht, hstage, rfl, rfl⟩ := step_fail.1 hstep
      rw [← timer?_forget hne] at ht
      exact step_fail.2 ⟨t, ht, hstage, setStage_forget hne _, rfl⟩

/-- What a step shows is of the pass whose step it is, if of any. -/
theorem pass?_of_step {e : Event ρ} (hstep : s.step a = some (s', now)) (he : e ∈ now) :
    e.pass? = a.pass? := by
  cases ha : a.pass? with
  | none => exact (step_request hstep ha).1 e he
  | some k =>
      obtain ⟨_, _, -, -, hnow, -⟩ := step_own hstep ha
      exact hnow e he

/-- A run without the steps of a pass is a run, with the same events but
for those of the pass. -/
theorem run_forget (hrun : s.run as = some (s', more)) (g : Nat) :
    (s.forget g).run (as.filter fun a => a.pass? ≠ some g)
      = some (s'.forget g, more.filter fun e => e.pass? ≠ some g) := by
  induction as generalizing s more with
  | nil =>
      cases hrun
      rfl
  | cons a as ih =>
      obtain ⟨mid, now, rest, hstep, hrest, rfl⟩ := run_cons.1 hrun
      have hnow := fun e => pass?_of_step (e := e) hstep
      rw [List.filter_cons, List.filter_append]
      by_cases ha : a.pass? = some g
      · -- a step of the pass itself is undone, and what it showed is of the pass
        have hnone : now.filter (fun e => e.pass? ≠ some g) = [] := by
          refine List.filter_eq_nil_iff.2 fun e he => ?_
          simp [hnow e he, ha]
        obtain ⟨_, stage, -, rfl, -⟩ := step_own hstep ha
        rw [if_neg (by simp [ha]), hnone, List.nil_append, ← ih hrest, forget_setStage]
      · have hall : now.filter (fun e => e.pass? ≠ some g) = now := by
          refine List.filter_eq_self.2 fun e he => ?_
          simp [hnow e he, ha]
        rw [if_pos (by simp [ha]), hall]
        exact run_cons.2 ⟨_, _, _, step_forget hstep ha, ih hrest, rfl⟩

/-- A failed pass told only that it began. -/
theorem eventsOf_failed (hrun : run {} as = some (s, seen)) (hfail : .fail g ∈ as) :
    ∃ source, eventsOf g seen = [.rendering g source] := by
  have hcoherent := coherent_of_run hrun
  have hmem : .fail g ∈ actionsOf g as := List.mem_filter.2 ⟨hfail, by simp [Action.pass?]⟩
  cases ht : s.timer? g with
  | none =>
      rw [(hcoherent.unknown g ht).1] at hmem
      cases hmem
  | some t => exact ⟨t.source, (hcoherent.courses g t ht).told_of_failed hmem⟩

/-- So nothing is ever delivered for a pass that failed. -/
theorem not_delivered_of_failed (hrun : run {} as = some (s, seen)) (hfail : .fail g ∈ as)
    (result : ρ) : .delivered g result ∉ seen := by
  intro hmem
  obtain ⟨source, htold⟩ := eventsOf_failed hrun hfail
  have hnone := mem_eventsOf_of_delivered hmem
  rw [htold] at hnone
  simp at hnone

/-- A failing step changes nothing but the stage of its own timer. -/
theorem step_fail_frame (hstep : s.step (.fail h : Action ρ) = some (s', now)) :
    now = [] ∧ s'.generation = s.generation ∧ s'.held = s.held ∧ s'.closed = s.closed
      ∧ ∀ k ≠ h, s'.timer? k = s.timer? k := by
  obtain ⟨t, -, -, rfl, rfl⟩ := step_fail.1 hstep
  refine ⟨rfl, rfl, rfl, rfl, fun k hk => ?_⟩
  rw [timer?_setStage]
  simp [hk]

/-- Let `g` be the pass that is scheduled for a source, in any state that a
run can lead to, and let no request follow. However the passes go on, the
timer of `g` is held, for that source, and live until it runs; each step
of `g` is possible when its turn comes and goes through; when it has
started, it has rendered the source, and when its render has ended with a
result, that is the one thing that was delivered for it. And a pass that
fails delivers nothing, its failing leaves number, timers and closing as
they were, and without its steps any run that it is part of goes on in the
same way. -/
theorem last_edit_delivered (hpast : run {} past = some (start, seen))
    (hasked : start.step (.schedule source : Action ρ) = some (mid, [.scheduled g]))
    (hrun : mid.run since = some (s, more)) (hsince : ∀ a ∈ since, a.pass? ≠ none) :
    (∃ t, s.timer? g = some t ∧ t.source = source ∧ s.held = some g
        ∧ (.wake g ∉ since → t.isLive = true)
        ∧ (t.stage = .waiting →
            s.step (.wake g : Action ρ) = some (s.setStage g .awake, []))
        ∧ (t.stage = .awake →
            s.step (.start g : Action ρ)
              = some (s.setStage g .rendering, [.rendering g source]))
        ∧ (t.stage = .rendering → ∀ result : ρ,
            s.step (.finish g result) = some (s.setStage g .over, [.delivered g result])))
      ∧ (.start g ∉ since → eventsOf g (seen ++ .scheduled g :: more) = [])
      ∧ (.start g ∈ since →
          ∃ rest, eventsOf g (seen ++ .scheduled g :: more) = .rendering g source :: rest)
      ∧ (∀ result, .finish g result ∈ since →
          eventsOf g (seen ++ .scheduled g :: more)
            = [.rendering g source, .delivered g result])
      ∧ (∀ (h : Nat) (s s' : Scheduler) (now : List (Event ρ)),
          s.step (.fail h) = some (s', now) →
          now = [] ∧ s'.generation = s.generation ∧ s'.held = s.held ∧ s'.closed = s.closed
            ∧ ∀ k ≠ h, s'.timer? k = s.timer? k)
      ∧ ∀ (h : Nat) (as : List (Action ρ)) (s : Scheduler) (seen : List (Event ρ)),
          run {} as = some (s, seen) → .fail h ∈ as →
          (∀ result, .delivered h result ∉ seen)
            ∧ ∃ s', run {} (as.filter fun a => a.pass? ≠ some h)
                = some (s', seen.filter fun e => e.pass? ≠ some h)
              ∧ s'.generation = s.generation ∧ s'.held = s.held ∧ s'.closed = s.closed
              ∧ ∀ k ≠ h, s'.timer? k = s.timer? k := by
  obtain ⟨hkept, hcourse, hstart, hfinish⟩ := last_kept hpast hasked hrun hsince
  obtain ⟨t, ht, hsource, hcancelled⟩ := hkept.timer
  have hgoes := hcourse t ht
  have hrendering : .start g ∈ since →
      .rendering g source ∈ eventsOf g (seen ++ .scheduled g :: more) := by
    intro hmem
    have hmore := List.mem_append_right seen (List.mem_cons_of_mem (.scheduled g) (hstart hmem))
    exact List.mem_filter.2 ⟨hmore, by simp [Event.pass?]⟩
  have hdelivered : ∀ result, .finish g result ∈ since →
      .delivered g result ∈ eventsOf g (seen ++ .scheduled g :: more) := by
    intro result hmem
    have hmore := List.mem_append_right seen
      (List.mem_cons_of_mem (.scheduled g) (hfinish result hmem))
    exact mem_eventsOf_of_delivered hmore
  have hactions : ∀ a : Action ρ, a.pass? = some g → (a ∈ since ↔ a ∈ actionsOf g since) := by
    intro a ha
    simp [actionsOf, ha]
  rw [hactions _ rfl] at hstart hrendering
  simp only [hactions (.wake g) rfl, hactions (.start g) rfl, fun r => hactions (.finish g r) rfl]
    at hdelivered ⊢
  refine ⟨⟨t, ht, hsource, hkept.held, ?live, ?wake, ?start, ?finish⟩, ?unstarted, ?started,
    ?finished, fun _ _ _ _ => step_fail_frame, ?failed⟩
  case wake => exact fun hstage => step_wake.2 ⟨t, ht, hstage, rfl, rfl⟩
  case start =>
    exact fun hstage => step_start.2 ⟨t, ht, hstage, .inl ⟨hkept.current, rfl, by rw [hsource]⟩⟩
  case finish =>
    exact fun hstage result => step_finish.2 ⟨t, ht, hstage, rfl, .inl ⟨hkept.current, rfl⟩⟩
  case live =>
    intro hwake
    simp [Timer.isLive, hcancelled, hgoes.waiting_of_not_woken hwake]
  case unstarted => exact hgoes.told_of_not_started
  case started => exact fun hmem => hgoes.told_of_rendering (hrendering hmem)
  case finished => exact fun result hmem => hgoes.told_of_delivered (hdelivered result hmem)
  case failed =>
    intro h as s seen hrun hfail
    exact ⟨not_delivered_of_failed hrun hfail, s.forget h, run_forget hrun h, rfl, rfl, rfl,
      fun k hk => timer?_forget hk⟩

/-- A render fails after an edit. The pass for the edit goes on as if the
other had not run. -/
theorem last_edit_delivered_after_failure :
    ∃ start mid s : Scheduler, ∃ more : List (Event Nat),
      run {} [.schedule ['a'], .wake 1, .start 1]
          = some (start, ([.scheduled 1, .rendering 1 ['a']] : List (Event Nat)))
        ∧ start.step (.schedule ['b'] : Action Nat) = some (mid, [.scheduled 2])
        ∧ mid.run [.fail 1, .wake 2, .start 2, .finish 2 20] = some (s, more)
        ∧ eventsOf 2 ([.scheduled 1, .rendering 1 ['a']] ++ .scheduled 2 :: more)
          = [.rendering 2 ['b'], .delivered 2 20]
        ∧ ∃ s', run {} [.schedule ['a'], .schedule ['b'], .wake 2, .start 2, .finish 2 20]
            = some (s', ([.scheduled 1, .scheduled 2, .rendering 2 ['b'], .delivered 2 20]
                : List (Event Nat)))
          ∧ s'.generation = s.generation ∧ s'.held = s.held ∧ s'.closed = s.closed := by
  have hpast : run {} [.schedule ['a'], .wake 1, .start 1]
      = some ({ timers := [{ generation := 1, source := ['a'], stage := .rendering }]
                held := some 1, generation := 1 },
          ([.scheduled 1, .rendering 1 ['a']] : List (Event Nat))) := rfl
  have hasked : step
      { timers := [{ generation := 1, source := ['a'], stage := .rendering }]
        held := some 1, generation := 1 }
      (.schedule ['b'] : Action Nat)
      = some ({ timers := [
                  { generation := 1, source := ['a'], cancelled := true, stage := .rendering },
                  { generation := 2, source := ['b'] }]
                held := some 2, generation := 2 }, [.scheduled 2]) := rfl
  have hrun : run
      { timers := [{ generation := 1, source := ['a'], cancelled := true, stage := .rendering },
          { generation := 2, source := ['b'] }]
        held := some 2, generation := 2 }
      [.fail 1, .wake 2, .start 2, .finish 2 20]
      = some ({ timers := [
                  { generation := 1, source := ['a'], cancelled := true, stage := .over },
                  { generation := 2, source := ['b'], stage := .over }]
                held := some 2, generation := 2 },
          ([.rendering 2 ['b'], .delivered 2 20] : List (Event Nat))) := rfl
  obtain ⟨-, -, -, hfinished, -, hfailed⟩ :=
    last_edit_delivered hpast hasked hrun (by simp [Action.pass?])
  obtain ⟨-, s', hrun', hgeneration, hheld, hclosed, -⟩ :=
    hfailed 1 [.schedule ['a'], .wake 1, .start 1, .schedule ['b'], .fail 1, .wake 2, .start 2,
      .finish 2 20] _ _ rfl (by simp)
  exact ⟨_, _, _, _, hpast, hasked, hrun, hfinished 20 (by simp), s', hrun', hgeneration, hheld,
    hclosed⟩

end FreeLabel.Scheduler
