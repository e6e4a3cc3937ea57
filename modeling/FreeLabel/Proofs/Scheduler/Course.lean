/-
What every run of a scheduler keeps to, whoever asks what in between.

# Steps

A step is either somebody's request, or it belongs to a pass
(`Action.pass?`). A request leaves every pass where it is, except that a
timer may be cancelled and a new one made; a step of a pass moves the
timer of that pass to another stage and touches nothing else (`step_own`).
So what is to be said of a scheduler is said of each pass by itself.

# The invariant

`Coherent` holds between a scheduler and its history: the actions that led
to it and the events that were seen. Its core is `Course`, the ways that a
pass can go; every pass is on one of them at any time, at the point that
its stage tells. A pass that was superseded may end at any of its two
looks at the scheduler, and that is what the courses `stale` and
`discarded` are for. The other fields tie generations to the history: the
timer of the newest pass was made by the last request there was.

Everything that is said of deliveries is read off the invariant, without
another induction over steps.
-/
import FreeLabel.Scheduler.Turn

namespace FreeLabel

variable {ρ : Type}

-- ============================================================== histories

namespace Scheduler

/-- The pass that an action is a step of. What is asked of the scheduler
is no step of any. -/
def Action.pass? : Action ρ → Option Nat
  | wake g | start g | finish g _ | fail g => some g
  | schedule _ | cancel | shut => none

/-- The pass that an event tells of. -/
def Event.pass? : Event ρ → Option Nat
  | rendering g _ | delivered g _ => some g
  | scheduled _ | turnedAway _ => none

/-- The pass whose result was delivered. -/
def Event.delivery? : Event ρ → Option Nat
  | delivered g _ => some g
  | _ => none

/-- The steps of a pass. -/
def actionsOf (g : Nat) (as : List (Action ρ)) : List (Action ρ) :=
  as.filter fun a => a.pass? = some g

/-- What was seen of a pass. -/
def eventsOf (g : Nat) (es : List (Event ρ)) : List (Event ρ) :=
  es.filter fun e => e.pass? = some g

/-- The passes whose results were delivered, in that order. -/
def deliveries (es : List (Event ρ)) : List Nat := es.filterMap Event.delivery?

variable {s s' : Scheduler} {a : Action ρ} {now : List (Event ρ)} {g h : Nat}

theorem actionsOf_append (g : Nat) (as bs : List (Action ρ)) :
    actionsOf g (as ++ bs) = actionsOf g as ++ actionsOf g bs := List.filter_append ..

theorem eventsOf_append (g : Nat) (es fs : List (Event ρ)) :
    eventsOf g (es ++ fs) = eventsOf g es ++ eventsOf g fs := List.filter_append ..

theorem deliveries_append (es fs : List (Event ρ)) :
    deliveries (es ++ fs) = deliveries es ++ deliveries fs := List.filterMap_append

theorem mem_deliveries {es : List (Event ρ)} :
    g ∈ deliveries es ↔ ∃ result, .delivered g result ∈ es := by
  constructor
  · intro hg
    obtain ⟨e, he, hdelivery⟩ := List.mem_filterMap.1 hg
    cases e with
    | delivered k result =>
        cases hdelivery
        exact ⟨result, he⟩
    | scheduled k => cases hdelivery
    | turnedAway source => cases hdelivery
    | rendering k source => cases hdelivery
  · rintro ⟨result, he⟩
    exact List.mem_filterMap.2 ⟨_, he, rfl⟩

-- ================================================================= timers

/-- Changing a timer changes no other. -/
theorem timer?_modifyTimer (f : Timer → Timer) (hf : ∀ t, (f t).generation = t.generation)
    (g h : Nat) :
    (s.modifyTimer g f).timer? h
      = (s.timer? h).map fun t => if h = g then f t else t := by
  unfold timer? modifyTimer
  simp only
  induction s.timers with
  | nil => rfl
  | cons t ts ih =>
      have hgeneration : (if t.generation = g then f t else t).generation = t.generation := by
        split
        next => exact hf t
        next => rfl
      rw [List.map_cons, List.find?_cons, List.find?_cons, hgeneration]
      by_cases hh : t.generation = h
      · simp [hh]
      · simp [hh, ih]

theorem timer?_setStage (g h : Nat) (stage : Stage) :
    (s.setStage g stage).timer? h
      = (s.timer? h).map fun t => if h = g then { t with stage := stage } else t :=
  timer?_modifyTimer (fun t => { t with stage := stage }) (fun _ => rfl) g h

/-- The timer of a pass has its source and its stage from before. It may
have been cancelled. -/
def Unmoved (s s' : Scheduler) (g : Nat) : Prop :=
  (s'.timer? g).map (fun t => (t.source, t.stage))
    = (s.timer? g).map fun t => (t.source, t.stage)

theorem Unmoved.timer?_eq_none_iff (hsame : s.Unmoved s' g) :
    s'.timer? g = none ↔ s.timer? g = none := by
  rw [← Option.map_eq_none_iff, hsame, Option.map_eq_none_iff]

theorem Unmoved.exists_timer (hsame : s.Unmoved s' g) {t : Timer} (ht : s'.timer? g = some t) :
    ∃ u, s.timer? g = some u ∧ t.source = u.source ∧ t.stage = u.stage := by
  have hmap := hsame.symm
  rw [ht, Option.map_some] at hmap
  obtain ⟨u, hu, heq⟩ := Option.map_eq_some_iff.1 hmap
  obtain ⟨hsource, hstage⟩ := Prod.mk.inj heq
  exact ⟨u, hu, hsource.symm, hstage.symm⟩

theorem unmoved_cancelHeld (s : Scheduler) (g : Nat) : s.Unmoved s.cancelHeld g := by
  unfold Unmoved cancelHeld
  cases s.held with
  | none => rfl
  | some k =>
      simp only
      rw [timer?_modifyTimer (fun t => { t with cancelled := true }) (fun _ => rfl),
        Option.map_map]
      congr 1
      funext t
      show (fun t : Timer => (t.source, t.stage)) (if g = k then _ else t) = _
      split <;> rfl

-- ================================================================== steps

/-- A scheduler that has taken a source. -/
def taken (s : Scheduler) (source : Text) : Scheduler :=
  { s.cancelHeld with
    timers := s.cancelHeld.timers ++ [{ generation := s.generation + 1, source := source }]
    held := some (s.generation + 1)
    generation := s.generation + 1 }

theorem step_schedule {source : Text} :
    s.step (.schedule source) = some (s', now)
      ↔ s.closed = true ∧ s' = s ∧ now = [.turnedAway source]
        ∨ s.closed = false ∧ s' = s.taken source ∧ now = [.scheduled (s.generation + 1)] := by
  unfold step schedule
  cases hclosed : s.closed with
  | true => simp [eq_comm]
  | false => simp [taken, eq_comm]

theorem step_cancel : s.step (.cancel : Action ρ) = some (s', now) ↔ s' = s.cancel ∧ now = [] := by
  simp [step, eq_comm]

theorem step_shut : s.step (.shut : Action ρ) = some (s', now) ↔ s' = s.shut ∧ now = [] := by
  simp [step, eq_comm]

theorem step_wake :
    s.step (.wake g : Action ρ) = some (s', now)
      ↔ ∃ t, s.timer? g = some t ∧ t.stage = .waiting ∧ s' = s.setStage g .awake ∧ now = [] := by
  cases ht : s.timer? g with
  | none => simp [step, ht]
  | some t => by_cases hstage : t.stage = .waiting <;> simp [step, ht, hstage, eq_comm]

theorem step_start :
    s.step (.start g : Action ρ) = some (s', now)
      ↔ ∃ t, s.timer? g = some t ∧ t.stage = .awake
          ∧ (s.isCurrent g = true ∧ s' = s.setStage g .rendering ∧ now = [.rendering g t.source]
            ∨ s.isCurrent g = false ∧ s' = s.setStage g .over ∧ now = []) := by
  cases ht : s.timer? g with
  | none => simp [step, ht]
  | some t =>
      by_cases hstage : t.stage = .awake
      · cases hcurrent : s.isCurrent g <;> simp [step, ht, hstage, hcurrent, eq_comm]
      · simp [step, ht, hstage]

theorem step_finish {result : ρ} :
    s.step (.finish g result) = some (s', now)
      ↔ ∃ t, s.timer? g = some t ∧ t.stage = .rendering ∧ s' = s.setStage g .over
          ∧ (s.isCurrent g = true ∧ now = [.delivered g result]
            ∨ s.isCurrent g = false ∧ now = []) := by
  cases ht : s.timer? g with
  | none => simp [step, ht]
  | some t =>
      by_cases hstage : t.stage = .rendering
      · cases hcurrent : s.isCurrent g <;> simp [step, ht, hstage, hcurrent, eq_comm]
      · simp [step, ht, hstage]

theorem step_fail :
    s.step (.fail g : Action ρ) = some (s', now)
      ↔ ∃ t, s.timer? g = some t ∧ t.stage = .rendering ∧ s' = s.setStage g .over
          ∧ now = [] := by
  cases ht : s.timer? g with
  | none => simp [step, ht]
  | some t => by_cases hstage : t.stage = .rendering <;> simp [step, ht, hstage, eq_comm]

/-- The timer that is made for a source. -/
theorem timer?_taken (hnew : s.timer? (s.generation + 1) = none) (source : Text) (g : Nat) :
    (s.taken source).timer? g
      = if g = s.generation + 1 then
          some { generation := s.generation + 1, source := source }
        else s.cancelHeld.timer? g := by
  have hcancelled := (unmoved_cancelHeld s (s.generation + 1)).timer?_eq_none_iff.2 hnew
  unfold timer? at hcancelled ⊢
  unfold taken
  rw [List.find?_append]
  by_cases hg : g = s.generation + 1
  · subst hg
    simp [hcancelled]
  · have hg' : ¬ s.generation + 1 = g := fun h => hg h.symm
    simp [hg, hg']

-- ============================================================= the courses

/-- How a pass for a source goes: its stage, its steps so far, and what
was seen of it. -/
inductive Course (g : Nat) (source : Text) :
    Stage → List (Action ρ) → List (Event ρ) → Prop
  /-- Its timer has not run. -/
  | waiting : Course g source .waiting [] []
  /-- Its timer has run. -/
  | awake : Course g source .awake [.wake g] []
  /-- It did not render, because it was superseded. -/
  | stale : Course g source .over [.wake g, .start g] []
  /-- It renders. -/
  | rendering : Course g source .rendering [.wake g, .start g] [.rendering g source]
  /-- Its render ended, and the result was delivered. -/
  | delivered (result : ρ) :
      Course g source .over [.wake g, .start g, .finish g result]
        [.rendering g source, .delivered g result]
  /-- Its render ended, and it was superseded. -/
  | discarded (result : ρ) :
      Course g source .over [.wake g, .start g, .finish g result] [.rendering g source]
  /-- Its render failed. -/
  | failed : Course g source .over [.wake g, .start g, .fail g] [.rendering g source]

section Course

variable {source : Text} {stage : Stage} {done : List (Action ρ)} {told : List (Event ρ)}

/-- A pass whose timer has not run waits. -/
theorem Course.waiting_of_not_woken (h : Course g source stage done told)
    (hwake : .wake g ∉ done) : stage = .waiting := by
  cases h <;> simp at hwake ⊢

/-- The timer of a pass that waits has not run. -/
theorem Course.not_woken (h : Course g source .waiting done told) : .wake g ∉ done := by
  cases h
  exact List.not_mem_nil

/-- Of a pass that has not started, there is nothing to tell. -/
theorem Course.told_of_not_started (h : Course g source stage done told)
    (hstart : .start g ∉ done) : told = [] := by
  cases h <;> simp at hstart ⊢

/-- If a pass rendered, that was the first to be told of it. -/
theorem Course.told_of_rendering (h : Course g source stage done told)
    (hrendering : .rendering g source ∈ told) : ∃ rest, told = .rendering g source :: rest := by
  cases h <;> simp at hrendering ⊢

/-- If a result was delivered, nothing else was. -/
theorem Course.told_of_delivered (h : Course g source stage done told) {result : ρ}
    (hdelivered : .delivered g result ∈ told) :
    told = [.rendering g source, .delivered g result] := by
  cases h <;> simp at hdelivered ⊢
  exact hdelivered.symm

/-- A pass that renders has told of it. -/
theorem Course.told_of_stage (h : Course g source .rendering done told) :
    told = [.rendering g source] := by
  cases h
  rfl

/-- A pass that failed told only that it began. -/
theorem Course.told_of_failed (h : Course g source stage done told) (hfail : .fail g ∈ done) :
    told = [.rendering g source] := by
  cases h <;> simp at hfail ⊢

end Course

/-- A step of a pass takes the pass on along its course, and leaves all
else as it is. -/
theorem step_own (hstep : s.step a = some (s', now)) (ha : a.pass? = some g) :
    ∃ t stage, s.timer? g = some t ∧ s' = s.setStage g stage
      ∧ (∀ e ∈ now, e.pass? = some g)
      ∧ ∀ done told, Course g t.source t.stage done told →
          Course g t.source stage (done ++ [a]) (told ++ now) := by
  cases a with
  | schedule source => cases ha
  | cancel => cases ha
  | shut => cases ha
  | wake k =>
      cases ha
      obtain ⟨t, ht, hstage, rfl, rfl⟩ := step_wake.1 hstep
      refine ⟨t, _, ht, rfl, by simp, ?_⟩
      intro done told hcourse
      rw [hstage] at hcourse
      cases hcourse
      exact .awake
  | start k =>
      cases ha
      obtain ⟨t, ht, hstage, ⟨-, rfl, rfl⟩ | ⟨-, rfl, rfl⟩⟩ := step_start.1 hstep
      · refine ⟨t, _, ht, rfl, by simp [Event.pass?], ?_⟩
        intro done told hcourse
        rw [hstage] at hcourse
        cases hcourse
        exact .rendering
      · refine ⟨t, _, ht, rfl, by simp, ?_⟩
        intro done told hcourse
        rw [hstage] at hcourse
        cases hcourse
        exact .stale
  | finish k result =>
      cases ha
      obtain ⟨t, ht, hstage, rfl, ⟨-, rfl⟩ | ⟨-, rfl⟩⟩ := step_finish.1 hstep
      · refine ⟨t, _, ht, rfl, by simp [Event.pass?], ?_⟩
        intro done told hcourse
        rw [hstage] at hcourse
        cases hcourse
        exact .delivered result
      · refine ⟨t, _, ht, rfl, by simp, ?_⟩
        intro done told hcourse
        rw [hstage] at hcourse
        cases hcourse
        exact .discarded result
  | fail k =>
      cases ha
      obtain ⟨t, ht, hstage, rfl, rfl⟩ := step_fail.1 hstep
      refine ⟨t, _, ht, rfl, by simp, ?_⟩
      intro done told hcourse
      rw [hstage] at hcourse
      cases hcourse
      exact .failed

/-- A request tells of no pass. It takes a source, cancels, shuts, or is
turned away. -/
theorem step_request (hstep : s.step a = some (s', now)) (ha : a.pass? = none) :
    (∀ e ∈ now, e.pass? = none)
      ∧ ((∃ source, a = .schedule source ∧ s.closed = false ∧ s' = s.taken source)
        ∨ s' = s.cancel ∨ s' = s.shut
        ∨ s' = s ∧ s.closed = true ∧ ∃ source, .turnedAway source ∈ now) := by
  cases a with
  | schedule source =>
      obtain ⟨hclosed, rfl, rfl⟩ | ⟨hclosed, rfl, rfl⟩ := step_schedule.1 hstep
      · exact ⟨by simp [Event.pass?], .inr (.inr (.inr ⟨rfl, hclosed, source, by simp⟩))⟩
      · exact ⟨by simp [Event.pass?], .inl ⟨source, rfl, hclosed, rfl⟩⟩
  | cancel =>
      obtain ⟨rfl, rfl⟩ := step_cancel.1 hstep
      exact ⟨by simp, .inr (.inl rfl)⟩
  | shut =>
      obtain ⟨rfl, rfl⟩ := step_shut.1 hstep
      exact ⟨by simp, .inr (.inr (.inl rfl))⟩
  | wake k => cases ha
  | start k => cases ha
  | finish k result => cases ha
  | fail k => cases ha

-- =================================================================== runs

theorem run_cons {as : List (Action ρ)} {seen : List (Event ρ)} :
    s.run (a :: as) = some (s', seen)
      ↔ ∃ mid now more, s.step a = some (mid, now) ∧ mid.run as = some (s', more)
          ∧ seen = now ++ more := by
  rw [run]
  simp only [Option.bind_eq_bind, Option.bind_eq_some_iff, Prod.exists, Option.some.injEq,
    Prod.mk.injEq]
  constructor
  · rintro ⟨mid, now, hstep, s', more, hrun, rfl, rfl⟩
    exact ⟨mid, now, more, hstep, hrun, rfl⟩
  · rintro ⟨mid, now, more, hstep, hrun, rfl⟩
    exact ⟨mid, now, hstep, s', more, hrun, rfl, rfl⟩

/-- A run is cut anywhere. -/
theorem run_append {as bs : List (Action ρ)} {seen : List (Event ρ)} :
    s.run (as ++ bs) = some (s', seen)
      ↔ ∃ mid first last, s.run as = some (mid, first) ∧ mid.run bs = some (s', last)
          ∧ seen = first ++ last := by
  induction as generalizing s seen with
  | nil =>
      constructor
      · intro h
        exact ⟨s, [], seen, rfl, h, rfl⟩
      · rintro ⟨mid, first, last, hnil, h, rfl⟩
        cases hnil
        exact h
  | cons a as ih =>
      rw [List.cons_append, run_cons]
      simp only [run_cons, ih]
      constructor
      · rintro ⟨next, now, _, hstep, ⟨mid, first, last, has, hbs, rfl⟩, rfl⟩
        exact ⟨mid, now ++ first, last, ⟨next, now, first, hstep, has, rfl⟩, hbs, by simp⟩
      · rintro ⟨mid, _, last, ⟨next, now, first, hstep, has, rfl⟩, hbs, rfl⟩
        exact ⟨next, now, first ++ last, hstep, ⟨mid, first, last, has, hbs, rfl⟩, by simp⟩

theorem run_concat {as : List (Action ρ)} {seen : List (Event ρ)} {mid : Scheduler}
    (hrun : s.run as = some (mid, seen)) (hstep : mid.step a = some (s', now)) :
    s.run (as ++ [a]) = some (s', seen ++ now) :=
  run_append.2 ⟨mid, seen, now, hrun, run_cons.2 ⟨s', now, [], hstep, rfl, by simp⟩, rfl⟩

/-- A turn is a run, with the requests of the render between its steps. -/
theorem exists_run_of_turn {render : Text → Rendering ρ} {seen : List (Event ρ)}
    (hturn : s.turn render g = some (s', seen)) :
    ∃ as : List (Action ρ), s.run as = some (s', seen) := by
  unfold turn at hturn
  simp only [Option.bind_eq_bind, Option.bind_eq_some_iff, Prod.exists] at hturn
  obtain ⟨mid, begun, hbegun, hrest⟩ := hturn
  split at hrest
  next k source =>
    simp only [Option.bind_eq_some_iff, Prod.exists, Option.some.injEq, Prod.mk.injEq]
      at hrest
    obtain ⟨late, meanwhile, hmeanwhile, last, ended, hended, rfl, rfl⟩ := hrest
    refine ⟨_, run_append.2 ⟨late, _, ended, run_append.2 ⟨mid, _, meanwhile, hbegun,
      hmeanwhile, rfl⟩, hended, rfl⟩⟩
  next =>
    simp only [Option.some.injEq, Prod.mk.injEq] at hrest
    obtain ⟨rfl, rfl⟩ := hrest
    exact ⟨_, hbegun⟩

/-- So are turns one after another. -/
theorem exists_run_turns (s : Scheduler) (render : Text → Rendering ρ) (gs : List Nat) :
    ∃ as : List (Action ρ), s.run as = some (s.turns render gs) := by
  induction gs generalizing s with
  | nil => exact ⟨[], rfl⟩
  | cons g gs ih =>
      rw [turns]
      split
      next => exact ih s
      next mid seen hturn =>
        obtain ⟨as, has⟩ := exists_run_of_turn hturn
        obtain ⟨bs, hbs⟩ := ih mid
        exact ⟨as ++ bs, run_append.2 ⟨mid, seen, _, has, hbs, rfl⟩⟩

-- ========================================================== the invariant

/-- The pass `g` was made for `source` by the last request there was, and
the scheduler was open. -/
def Newest (past : List (Action ρ)) (g : Nat) (source : Text) : Prop :=
  ∃ before since s seen, past = before ++ .schedule source :: since
    ∧ run {} before = some (s, seen) ∧ s.closed = false ∧ g = s.generation + 1
    ∧ ∀ a ∈ since, a.pass? ≠ none

/-- A step of a pass is no request. -/
theorem Newest.step {past : List (Action ρ)} {source : Text} (hnewest : Newest past g source)
    (ha : a.pass? ≠ none) : Newest (past ++ [a]) g source := by
  obtain ⟨before, since, s, seen, rfl, hrun, hopen, rfl, hsince⟩ := hnewest
  refine ⟨before, since ++ [a], s, seen, by simp, hrun, hopen, rfl, ?_⟩
  intro b hb
  rcases List.mem_append.1 hb with hb | hb
  · exact hsince b hb
  · obtain rfl := List.mem_singleton.1 hb
    exact ha

/-- A scheduler and its history. -/
structure Coherent (past : List (Action ρ)) (seen : List (Event ρ)) (s : Scheduler) :
    Prop where
  ran : run {} past = some (s, seen)
  /-- No pass is newer than the newest. -/
  bounded : ∀ g t, s.timer? g = some t → g ≤ s.generation
  /-- A pass that would be let through is the one asked for last. -/
  newest : ∀ g t, s.timer? g = some t → s.isCurrent g = true → Newest past g t.source
  /-- Every pass is on its course. -/
  courses : ∀ g t, s.timer? g = some t →
    Course g t.source t.stage (actionsOf g past) (eventsOf g seen)
  /-- Of other passes there is no trace. -/
  unknown : ∀ g, s.timer? g = none → actionsOf g past = [] ∧ eventsOf g seen = []
  /-- Deliveries came in order. -/
  increasing : (deliveries seen).Pairwise (· < ·)

theorem coherent_start : Coherent ([] : List (Action ρ)) [] {} where
  ran := rfl
  bounded := by
    intro g t ht
    cases ht
  newest := by
    intro g t ht
    cases ht
  courses := by
    intro g t ht
    cases ht
  unknown := fun _ _ => ⟨rfl, rfl⟩
  increasing := .nil

variable {past : List (Action ρ)} {seen : List (Event ρ)}

theorem mem_eventsOf_of_delivered {result : ρ} (h : .delivered g result ∈ seen) :
    .delivered g result ∈ eventsOf g seen :=
  List.mem_filter.2 ⟨h, by simp [Event.pass?]⟩

/-- What was delivered is a pass that was made. -/
theorem Coherent.exists_timer (h : Coherent past seen s) (hg : g ∈ deliveries seen) :
    ∃ t, s.timer? g = some t := by
  obtain ⟨result, hresult⟩ := mem_deliveries.1 hg
  cases ht : s.timer? g with
  | some t => exact ⟨t, rfl⟩
  | none =>
      have hmem := mem_eventsOf_of_delivered hresult
      rw [(h.unknown g ht).2] at hmem
      cases hmem

/-- The next pass has no timer yet. -/
theorem Coherent.timer?_next (h : Coherent past seen s) :
    s.timer? (s.generation + 1) = none := by
  cases ht : s.timer? (s.generation + 1) with
  | none => rfl
  | some t =>
      have := h.bounded _ t ht
      omega

/-- A pass that renders has not been delivered. -/
theorem Coherent.not_delivered (h : Coherent past seen s) {t : Timer}
    (ht : s.timer? g = some t) (hstage : t.stage = .rendering) : g ∉ deliveries seen := by
  intro hg
  obtain ⟨result, hresult⟩ := mem_deliveries.1 hg
  have hmem := mem_eventsOf_of_delivered hresult
  have hcourse := h.courses g t ht
  rw [hstage] at hcourse
  rw [hcourse.told_of_stage] at hmem
  simp at hmem

/-- What a step tells of a pass: that it begins to render its source, or
that its result is delivered; and the pass is current. -/
theorem step_event {e : Event ρ} (hstep : s.step a = some (s', now)) (he : e ∈ now)
    (hg : e.pass? = some g) :
    s.isCurrent g = true ∧ now = [e]
      ∧ ∃ t, s.timer? g = some t
        ∧ (e = .rendering g t.source
          ∨ t.stage = .rendering ∧ ∃ result, e = .delivered g result) := by
  cases ha : a.pass? with
  | none =>
      rw [(step_request hstep ha).1 e he] at hg
      cases hg
  | some k =>
      cases a with
      | schedule source => cases ha
      | cancel => cases ha
      | shut => cases ha
      | wake k =>
          obtain ⟨t, -, -, -, rfl⟩ := step_wake.1 hstep
          cases he
      | start k =>
          obtain ⟨t, ht, -, ⟨hcurrent, -, rfl⟩ | ⟨-, -, rfl⟩⟩ := step_start.1 hstep
          · obtain rfl := List.mem_singleton.1 he
            cases hg
            exact ⟨hcurrent, rfl, t, ht, .inl rfl⟩
          · cases he
      | finish k result =>
          obtain ⟨t, ht, hstage, -, ⟨hcurrent, rfl⟩ | ⟨-, rfl⟩⟩ := step_finish.1 hstep
          · obtain rfl := List.mem_singleton.1 he
            cases hg
            exact ⟨hcurrent, rfl, t, ht, .inr ⟨hstage, result, rfl⟩⟩
          · cases he
      | fail k =>
          obtain ⟨t, -, -, -, rfl⟩ := step_fail.1 hstep
          cases he

theorem isCurrent_iff : s.isCurrent g = true ↔ s.closed = false ∧ g = s.generation := by
  simp [isCurrent]

/-- A delivery is newer than those before it. -/
theorem Coherent.increasing_step (h : Coherent past seen s)
    (hstep : s.step a = some (s', now)) : (deliveries (seen ++ now)).Pairwise (· < ·) := by
  rw [deliveries_append]
  cases hnow : deliveries now with
  | nil =>
      rw [List.append_nil]
      exact h.increasing
  | cons g gs =>
      have hmem : g ∈ deliveries now := hnow ▸ List.mem_cons_self
      obtain ⟨result, hresult⟩ := mem_deliveries.1 hmem
      obtain ⟨hcurrent, rfl, t, ht, hrendering | ⟨hstage, -⟩⟩ := step_event hstep hresult rfl
      · cases hrendering
      cases (List.cons.inj hnow).2
      refine List.pairwise_append.2 ⟨h.increasing, List.pairwise_singleton _ _, ?_⟩
      intro k hk n hn
      rw [List.mem_singleton.1 hn]
      obtain ⟨u, hu⟩ := h.exists_timer hk
      have hle := h.bounded k u hu
      have hne : k ≠ g := by
        rintro rfl
        exact h.not_delivered ht hstage hk
      have hg := (isCurrent_iff.1 hcurrent).2
      omega

/-- A step of a pass keeps a scheduler coherent. -/
theorem Coherent.step_own (h : Coherent past seen s) (hstep : s.step a = some (s', now))
    {k : Nat} (ha : a.pass? = some k) : Coherent (past ++ [a]) (seen ++ now) s' := by
  have hran := run_concat h.ran hstep
  have hincreasing := h.increasing_step hstep
  obtain ⟨t, stage, ht, rfl, hnow, hcourse⟩ := Scheduler.step_own hstep ha
  have hmap := fun g => timer?_setStage (s := s) k g stage
  refine ⟨hran, ?bounded, ?newest, ?courses, ?unknown, hincreasing⟩
  case bounded =>
    intro g u hu
    obtain ⟨v, hv, -⟩ := Option.map_eq_some_iff.1 (hmap g ▸ hu)
    exact h.bounded g v hv
  case newest =>
    intro g u hu hcurrent
    obtain ⟨v, hv, rfl⟩ := Option.map_eq_some_iff.1 (hmap g ▸ hu)
    have hnewest := (h.newest g v hv hcurrent).step (a := a) (by simp [ha])
    split <;> exact hnewest
  case courses =>
    intro g u hu
    obtain ⟨v, hv, rfl⟩ := Option.map_eq_some_iff.1 (hmap g ▸ hu)
    have hold := h.courses g v hv
    rw [actionsOf_append, eventsOf_append]
    by_cases hg : g = k
    · subst hg
      rw [ht] at hv
      cases hv
      have hone : actionsOf g [a] = [a] := by simp [actionsOf, ha]
      have hall : eventsOf g now = now := by simpa [eventsOf] using hnow
      rw [hone, hall, if_pos rfl]
      exact hcourse _ _ hold
    · have hnone : actionsOf g [a] = [] := by simp [actionsOf, ha, Ne.symm hg]
      have hnothing : eventsOf g now = [] := by
        refine List.filter_eq_nil_iff.2 fun e he => ?_
        simp [hnow e he, Ne.symm hg]
      rw [hnone, hnothing, List.append_nil, List.append_nil, if_neg hg]
      exact hold
  case unknown =>
    intro g hg
    have hg' : s.timer? g = none := by simpa using (hmap g).symm.trans hg
    have hne : ¬ k = g := by
      rintro rfl
      rw [ht] at hg'
      cases hg'
    obtain ⟨hactions, hevents⟩ := h.unknown g hg'
    rw [actionsOf_append, eventsOf_append, hactions, hevents]
    refine ⟨by simp [actionsOf, ha, hne], ?_⟩
    refine List.filter_eq_nil_iff.2 fun e he => ?_
    simp [hnow e he, hne]

/-- A request adds nothing to the history of a pass. -/
theorem histories_request (past : List (Action ρ)) (seen : List (Event ρ))
    (hstep : s.step a = some (s', now)) (ha : a.pass? = none) (g : Nat) :
    actionsOf g (past ++ [a]) = actionsOf g past
      ∧ eventsOf g (seen ++ now) = eventsOf g seen := by
  have hnow := (step_request hstep ha).1
  rw [actionsOf_append, eventsOf_append, List.append_right_eq_self,
    List.append_right_eq_self]
  refine ⟨by simp [actionsOf, ha], List.filter_eq_nil_iff.2 fun e he => ?_⟩
  simp [hnow e he]

/-- A request that leaves all passes where they are, and lets none of them
through, keeps a scheduler coherent. -/
theorem Coherent.step_still (h : Coherent past seen s) (hstep : s.step a = some (s', now))
    (ha : a.pass? = none) (hgeneration : s.generation ≤ s'.generation)
    (hsame : ∀ g, s.Unmoved s' g)
    (hstale : ∀ g t, s.timer? g = some t → s'.isCurrent g = false) :
    Coherent (past ++ [a]) (seen ++ now) s' := by
  have hhistory := histories_request past seen hstep ha
  refine ⟨run_concat h.ran hstep, ?bounded, ?newest, ?courses, ?unknown,
    h.increasing_step hstep⟩
  case bounded =>
    intro g t ht
    obtain ⟨u, hu, -⟩ := (hsame g).exists_timer ht
    exact Nat.le_trans (h.bounded g u hu) hgeneration
  case newest =>
    intro g t ht hcurrent
    obtain ⟨u, hu, -⟩ := (hsame g).exists_timer ht
    rw [hstale g u hu] at hcurrent
    cases hcurrent
  case courses =>
    intro g t ht
    obtain ⟨u, hu, hsource, hstage⟩ := (hsame g).exists_timer ht
    rw [hsource, hstage, (hhistory g).1, (hhistory g).2]
    exact h.courses g u hu
  case unknown =>
    intro g hg
    rw [(hhistory g).1, (hhistory g).2]
    exact h.unknown g ((hsame g).timer?_eq_none_iff.1 hg)

/-- Taking a source keeps a scheduler coherent. -/
theorem Coherent.step_taken (h : Coherent past seen s) {source : Text}
    (hstep : s.step (.schedule source) = some (s.taken source, now)) (hopen : s.closed = false) :
    Coherent (past ++ [.schedule source]) (seen ++ now) (s.taken source) := by
  have hhistory := histories_request past seen hstep rfl
  have hnew := h.timer?_next
  have htaken := timer?_taken hnew source
  refine ⟨run_concat h.ran hstep, ?bounded, ?newest, ?courses, ?unknown,
    h.increasing_step hstep⟩
  case bounded =>
    intro g t ht
    rw [htaken] at ht
    show g ≤ s.generation + 1
    split at ht
    next hg => omega
    next =>
      obtain ⟨u, hu, -⟩ := (unmoved_cancelHeld s g).exists_timer ht
      have := h.bounded g u hu
      omega
  case newest =>
    intro g t ht hcurrent
    have hg : g = s.generation + 1 := (isCurrent_iff.1 hcurrent).2
    rw [htaken, if_pos hg] at ht
    cases ht
    exact ⟨past, [], s, seen, rfl, h.ran, hopen, hg, by simp⟩
  case courses =>
    intro g t ht
    rw [(hhistory g).1, (hhistory g).2]
    rw [htaken] at ht
    split at ht
    next hg =>
      subst hg
      cases ht
      obtain ⟨hdone, htold⟩ := h.unknown _ hnew
      rw [hdone, htold]
      exact .waiting
    next =>
      obtain ⟨u, hu, hsource, hstage⟩ := (unmoved_cancelHeld s g).exists_timer ht
      rw [hsource, hstage]
      exact h.courses g u hu
  case unknown =>
    intro g hg
    rw [htaken] at hg
    split at hg
    next => cases hg
    next =>
      rw [(hhistory g).1, (hhistory g).2]
      exact h.unknown g ((unmoved_cancelHeld s g).timer?_eq_none_iff.1 hg)

/-- The step lemma. -/
theorem Coherent.step (h : Coherent past seen s) (hstep : s.step a = some (s', now)) :
    Coherent (past ++ [a]) (seen ++ now) s' := by
  cases ha : a.pass? with
  | some k => exact h.step_own hstep ha
  | none =>
      obtain ⟨-, ⟨source, rfl, hopen, rfl⟩ | rfl | rfl | ⟨rfl, hclosed, -⟩⟩ :=
        step_request hstep ha
      · exact h.step_taken hstep hopen
      · -- cancelling takes up a number that no pass has
        refine h.step_still hstep ha (Nat.le_succ _) (unmoved_cancelHeld s) ?_
        intro g t ht
        have := h.bounded g t ht
        have hne : g ≠ s.generation + 1 := by omega
        simp [isCurrent, cancel, hne]
      · exact h.step_still hstep ha (Nat.le_refl _) (fun _ => rfl) fun _ _ _ => by
          simp [isCurrent, shut]
      · exact h.step_still hstep ha (Nat.le_refl _) (fun _ => rfl) fun _ _ _ => by
          simp [isCurrent, hclosed]

/-- The run lemma. -/
theorem Coherent.run (h : Coherent past seen s) {as : List (Action ρ)} {more : List (Event ρ)}
    (hrun : s.run as = some (s', more)) : Coherent (past ++ as) (seen ++ more) s' := by
  induction as generalizing past seen s more with
  | nil =>
      cases hrun
      rw [List.append_nil, List.append_nil]
      exact h
  | cons a as ih =>
      obtain ⟨mid, now, rest, hstep, hrest, rfl⟩ := run_cons.1 hrun
      have hall := ih (h.step hstep) hrest
      simpa using hall

/-- Every scheduler is coherent with its history. -/
theorem coherent_of_run (hrun : Scheduler.run {} past = some (s, seen)) : Coherent past seen s :=
  coherent_start.run hrun

end Scheduler

end FreeLabel
