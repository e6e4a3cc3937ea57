/-
How a row of tokens is laid out. With single spaces, a row is the spellings
of its tokens with a space between any two, and with one more at an end
where an arrow stands (`squeeze_layOut`): an arrow brings the spaces on its
two sides along, and where a space already stands the two become one. The
spaces within labels become single where they stand.

So a row does not tell whether the spellings it was laid out from had been
squeezed before (`squeeze_layOut_squeezed`).
-/
import FreeLabel.Proofs.Flow.Spaces

namespace FreeLabel.Flow

open Text (trim)

-- ================================================================= words

/-- A text that is not empty, and trimmed. -/
structure IsWord (w : Text) : Prop where
  ne_nil : w ≠ []
  trimmed : trim w = w

variable {a s t v w : Text}

theorem squeeze_squeeze (s : Text) : squeeze (squeeze s) = squeeze s := by
  induction s with
  | nil => rfl
  | cons c s ih =>
      rw [squeeze_cons]
      split
      next => exact ih
      next h => rw [squeeze_cons, head?_squeeze, if_neg h, ih]

theorem getLast?_ne_space (hs : trim s = s) : s.getLast? ≠ some ' ' := fun h =>
  absurd ((Text.trim_eq_self_iff.1 hs).2 ' ' h) (by decide)

theorem head?_ne_space (hne : s ≠ []) (hs : trim s = s) (t : Text) :
    (s ++ t).head? ≠ some ' ' := by
  cases s with
  | nil => exact absurd rfl hne
  | cons c s =>
      intro h
      exact absurd ((Text.trim_eq_self_iff.1 hs).1 ' ' h) (by decide)

theorem IsWord.squeeze (hw : IsWord w) : IsWord (squeeze w) where
  ne_nil := by
    intro h
    have hhead := head?_squeeze w
    rw [h] at hhead
    exact hw.ne_nil (List.head?_eq_none_iff.1 hhead.symm)
  trimmed := by rw [trim_squeeze, hw.trimmed]

/-- Texts in a row, each behind a space. -/
def spaced (ws : List Text) : Text := ws.flatMap fun w => ' ' :: w

/-- A row of words is one. -/
theorem IsWord.append_spaced {ws : List Text} (hw : IsWord w) (hws : ∀ v ∈ ws, IsWord v) :
    IsWord (w ++ spaced ws) := by
  induction ws generalizing w with
  | nil => simpa [spaced] using hw
  | cons v ws ih =>
      obtain ⟨hv, hws⟩ := List.forall_mem_cons.1 hws
      have hrest := ih hv hws
      have hrow : w ++ spaced (v :: ws) = w ++ ([' '] ++ (v ++ spaced ws)) := rfl
      rw [hrow]
      exact ⟨by simp [hw.ne_nil],
        Text.trim_between hw.ne_nil hw.trimmed hrest.ne_nil hrest.trimmed [' ']⟩

-- ================================================================== rows

/-- What is laid out behind an arrow or behind a node. -/
def layOutBehind (arrow : Bool) (es : List (Bool × Text)) : Text :=
  if arrow then ' ' :: layOut false es else layOut true es

/-- The space that a row ends with if it ends with an arrow. `arrow` tells
whether one stands before the row. -/
def trail (arrow : Bool) : List (Bool × Text) → Text
  | [] => if arrow then [' '] else []
  | e :: es => trail e.1 es

variable {es : List (Bool × Text)} {arrow : Bool}

theorem isBlank_of_mem_trail : ∀ c ∈ trail arrow es, isBlank c = true := by
  induction es generalizing arrow with
  | nil =>
      cases arrow with
      | true => exact Text.isBlank_of_mem_space
      | false => exact nofun
  | cons e es ih => exact ih

/-- Behind a node and behind an arrow alike, what is laid out next stands
behind one space. -/
theorem squeeze_layOutBehind_cons (hw : IsWord w) (arrow next : Bool)
    (es : List (Bool × Text)) :
    squeeze (layOutBehind arrow ((next, w) :: es))
      = ' ' :: squeeze w ++ squeeze (layOutBehind next es) := by
  have hhead : ∀ t, (w ++ t).head? ≠ some ' ' := head?_ne_space hw.ne_nil hw.trimmed
  have hword : squeeze (' ' :: (w ++ layOutBehind next es))
      = ' ' :: squeeze w ++ squeeze (layOutBehind next es) := by
    rw [squeeze_cons, if_neg fun h => hhead _ h.2,
      squeeze_append (.inl (getLast?_ne_space hw.trimmed)), List.cons_append]
  cases next with
  | true =>
      have hrow : ∀ b, layOut b ((true, w) :: es) = ' ' :: (w ++ layOutBehind true es) := by
        intro b
        simp [layOut, layOutBehind]
      cases arrow with
      | true =>
          show squeeze (' ' :: layOut false ((true, w) :: es)) = _
          rw [hrow, squeeze, hword]
      | false =>
          show squeeze (layOut true ((true, w) :: es)) = _
          rw [hrow, hword]
  | false =>
      have hrow : layOutBehind arrow ((false, w) :: es)
          = ' ' :: (w ++ layOutBehind false es) := by
        cases arrow <;> rfl
      rw [hrow, hword]

theorem squeeze_layOutBehind (hes : ∀ e ∈ es, IsWord e.2) (arrow : Bool) :
    squeeze (layOutBehind arrow es) = spaced (es.map fun e => squeeze e.2) ++ trail arrow es := by
  induction es generalizing arrow with
  | nil => cases arrow <;> rfl
  | cons e es ih =>
      obtain ⟨he, hes⟩ := List.forall_mem_cons.1 hes
      rw [squeeze_layOutBehind_cons he, ih hes, List.map_cons, trail]
      simp [spaced]

variable {e : Bool × Text}

/-- A row is its words, and the spaces of an arrow at either end. -/
theorem squeeze_layOut (he : IsWord e.2) (hes : ∀ e ∈ es, IsWord e.2) :
    squeeze (layOut false (e :: es))
      = (if e.1 then [' '] else [])
        ++ (squeeze e.2 ++ spaced (es.map fun e => squeeze e.2) ++ trail e.1 es) := by
  obtain ⟨next, w⟩ := e
  cases next with
  | true =>
      have hrow : layOut false ((true, w) :: es) = layOutBehind false ((true, w) :: es) := by
        simp [layOut, layOutBehind]
      rw [hrow, squeeze_layOutBehind_cons he, squeeze_layOutBehind hes]
      simp
  | false =>
      show squeeze (w ++ layOutBehind false es) = _
      rw [squeeze_append (.inl (getLast?_ne_space he.trimmed)), squeeze_layOutBehind hes]
      simp

theorem trail_map (f : Text → Text) (arrow : Bool) (es : List (Bool × Text)) :
    trail arrow (es.map fun e => (e.1, f e.2)) = trail arrow es := by
  induction es generalizing arrow with
  | nil => rfl
  | cons e es ih => exact ih e.1

/-- Spellings may be squeezed before they are laid out. -/
theorem squeeze_layOut_squeezed (hes : ∀ e ∈ es, IsWord e.2) :
    squeeze (layOut false (es.map fun e => (e.1, squeeze e.2))) = squeeze (layOut false es) := by
  cases es with
  | nil => rfl
  | cons e es =>
      obtain ⟨he, hes⟩ := List.forall_mem_cons.1 hes
      have hsqueezed : ∀ e ∈ es.map (fun e => (e.1, squeeze e.2)), IsWord e.2 := by
        intro e he
        obtain ⟨e', he', rfl⟩ := List.mem_map.1 he
        exact (hes e' he').squeeze
      rw [List.map_cons, squeeze_layOut he.squeeze hsqueezed, squeeze_layOut he hes, trail_map,
        List.map_map, squeeze_squeeze]
      simp only [Function.comp_def, squeeze_squeeze]

/-- A row holds its spellings, and spaces. -/
theorem mem_layOut {b : Bool} {c : Char} (h : c ∈ layOut b es) :
    c = ' ' ∨ ∃ e ∈ es, c ∈ e.2 := by
  fun_induction layOut b es with
  | case1 => cases h
  | case2 b w es ih =>
      simp only [List.mem_append, List.mem_singleton] at h
      rcases h with ((h | h) | h) | h
      · exact .inl h
      · exact .inr ⟨_, List.mem_cons_self, h⟩
      · exact .inl h
      · rcases ih h with h | ⟨e, he, hc⟩
        · exact .inl h
        · exact .inr ⟨e, List.mem_cons_of_mem _ he, hc⟩
  | case3 b w es ih =>
      rcases List.mem_append.1 h with h | h
      · rcases List.mem_append.1 h with h | h
        · split at h
          next => exact .inl (List.mem_singleton.1 h)
          next => cases h
        · exact .inr ⟨_, List.mem_cons_self, h⟩
      · rcases ih h with h | ⟨e, he, hc⟩
        · exact .inl h
        · exact .inr ⟨e, List.mem_cons_of_mem _ he, hc⟩

end FreeLabel.Flow
