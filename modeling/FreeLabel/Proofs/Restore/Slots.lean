/-
Where texts stand in a drawing, and how often names are put into each.

# Slots

Every stretch of text in a drawing is all that an element holds, or comes
before its first child, or behind one of its children. `Element.slots`
lists the stretches in document order, each with the names of the elements
around it. Which of them restoration visits can be read off those names:
a text inside a foreign object belongs to a label of it, except the text
that the foreign object itself begins with; outside of foreign objects a
label is all that an element `text` or `tspan` holds.

# Visits

Each label is to be visited once. But foreign objects are gone through one
after the other, and what is inside of two is gone through twice: names
are put into a text as often as there are foreign objects around it
(`slots_restore`). So a drawing is restored as it should be, whatever the
legend, exactly if no label with a text stands inside of two
(`named_once_iff`). In one that does, a name is itself looked through for
identifiers.
-/
import FreeLabel.Proofs.Markup.Drawings
import FreeLabel.Proofs.Restore.Labels

namespace FreeLabel.Markup

-- ================================================================= slots

/-- How a text stands in an element. -/
inductive Stand
  /-- It is all that the element holds. -/
  | whole
  /-- It comes before the element's first child. -/
  | lead
  /-- It comes behind a child of the element. -/
  | behind
deriving DecidableEq, Repr

/-- A text in a drawing, and where it stands. -/
structure Slot where
  /-- The names of the elements around it, from the innermost on. -/
  around : List Name
  /-- How it stands in the innermost. -/
  stand : Stand
  /-- The text. -/
  text : Text
deriving DecidableEq, Repr

/-- How the text stands that the content of an element begins with. -/
def Content.stand : Content → Stand
  | .text _ => .whole
  | .element .. => .lead

/-- The texts in content, in document order. `around` are the names of the
elements around the content, and `stand` is how its first text stands. -/
def Content.slots (around : List Name) (stand : Stand) : Content → List Slot
  | .text t => [{ around := around, stand := stand, text := t }]
  | .element before tag _ inner after =>
    { around := around, stand := stand, text := before } ::
      (inner.slots (tag :: around) inner.stand ++ after.slots around .behind)

/-- The texts in an element, in document order. -/
def Element.slots (e : Element) : List Slot := e.inner.slots [e.tag] e.inner.stand

end FreeLabel.Markup

namespace FreeLabel.Restore

open Markup (Content Element Name Slot Stand)
open Naming (Legend)

-- ================================================================ labels

/-- How many foreign objects a text is inside of. The text that an element
begins with is not inside of that element for this. -/
def foreignObjects (around : List Name) : Stand → Nat
  | .behind => around.countP isForeign
  | .whole | .lead => around.tail.countP isForeign

/-- Whether a text is all that an element `text` or `tspan` holds. -/
def isPlain (around : List Name) (stand : Stand) : Bool :=
  stand = .whole && around.head?.any isPlainLabel

/-- Whether a text is a label's. -/
def isLabelText (s : Slot) : Bool :=
  0 < foreignObjects s.around s.stand || isPlain s.around s.stand

/-- How often a text is visited. -/
def visits (around : List Name) (stand : Stand) : Nat :=
  if foreignObjects around stand = 0 && isPlain around stand then 1
  else foreignObjects around stand

/-- A text as it is to be restored: if it is a label's, names are put into
it once. -/
def namedOnce (l : Legend) (s : Slot) : Slot :=
  if isLabelText s then { s with text := l.substitute s.text } else s

/-- A text with a function applied to it as often as it is visited. -/
def visited (f : Text → Text) (s : Slot) : Slot :=
  { s with text := times f (visits s.around s.stand) s.text }

-- ================================================================ visits

theorem stand_mapLabels (f : Text → Text) (depth lead : Nat) (c : Content) :
    (mapLabels f depth lead c).stand = c.stand := by
  cases c <;> rfl

theorem depthInside_eq (around : List Name) (tag : Name) :
    depthInside (around.countP isForeign) tag = (tag :: around).countP isForeign := by
  unfold depthInside
  rw [List.countP_cons]
  split <;> rfl

theorem leadCount_eq (around : List Name) (tag : Name) (inner : Content) :
    leadCount (around.countP isForeign) tag inner = visits (tag :: around) inner.stand := by
  cases inner with
  | text t =>
      show _ = if (decide (around.countP isForeign = 0) && isPlainLabel tag) = true then 1
        else around.countP isForeign
      rfl
  | element before tag' attrs inner after =>
      show _ = if (decide (around.countP isForeign = 0) && false) = true then 1
        else around.countP isForeign
      rw [Bool.and_false]
      rfl

theorem visits_behind (around : List Name) :
    visits around .behind = around.countP isForeign := by
  show (if (decide (around.countP isForeign = 0) && false) = true then 1
    else around.countP isForeign) = _
  rw [Bool.and_false]
  rfl

/-- Each text is visited as often as its place says. -/
theorem slots_mapLabels (f : Text → Text) (around : List Name) (stand : Stand) (c : Content) :
    (mapLabels f (around.countP isForeign) (visits around stand) c).slots around stand
      = (c.slots around stand).map (visited f) := by
  induction c generalizing around stand with
  | text t => rfl
  | element before tag attrs inner after ihInner ihAfter =>
      have hafter := ihAfter around .behind
      rw [visits_behind] at hafter
      rw [mapLabels, Content.slots, Content.slots, stand_mapLabels, depthInside_eq,
        leadCount_eq, ihInner, hafter, List.map_cons, List.map_append]
      rfl

/-- Keeping labels from being wrapped changes no text. -/
theorem slots_unwrapContent (depth : Nat) (around : List Name) (stand : Stand) (c : Content) :
    (unwrapContent depth c).slots around stand = c.slots around stand := by
  induction c generalizing depth around stand with
  | text t => rfl
  | element before tag attrs inner after ihInner ihAfter =>
      have hstand : ∀ d, (unwrapContent d inner).stand = inner.stand := by
        intro d
        cases inner <;> rfl
      rw [unwrapContent, Content.slots, Content.slots, hstand, ihInner, ihAfter]

/-- What restoration makes of the texts in a drawing. -/
theorem slots_restore (l : Legend) (nowrap : Bool) (e : Element) :
    (restore l nowrap e).slots = e.slots.map (visited l.substitute) := by
  have hnamed : (mapElementLabels l.substitute e).slots = e.slots.map (visited l.substitute) := by
    have hall := slots_mapLabels l.substitute [e.tag] e.inner.stand e.inner
    rw [← leadCount_eq [] e.tag e.inner, ← depthInside_eq [] e.tag] at hall
    unfold Element.slots
    rw [← hall]
    show (mapLabels l.substitute (depthInside 0 e.tag) (leadCount 0 e.tag e.inner)
      e.inner).slots [e.tag] (mapLabels _ _ _ e.inner).stand = _
    rw [stand_mapLabels]
    rfl
  unfold restore
  split
  next hempty =>
    have hself : visited l.substitute = id := by
      funext s
      unfold visited
      rw [times_eq_self (Legend.substitute_of_isEmpty hempty s.text)]
      rfl
    rw [hself, List.map_id]
  next =>
    cases nowrap with
    | false => exact hnamed
    | true =>
        refine Eq.trans ?_ hnamed
        unfold Element.slots
        show (unwrapContent _ _).slots [e.tag] (unwrapContent _ _).stand = _
        rw [slots_unwrapContent]
        cases (mapElementLabels l.substitute e).inner <;> rfl

-- ================================================================== once

theorem isLabelText_iff (s : Slot) :
    isLabelText s = true ↔ 0 < visits s.around s.stand := by
  unfold isLabelText visits
  by_cases hforeign : foreignObjects s.around s.stand = 0
  · cases hplain : isPlain s.around s.stand <;> simp [hforeign]
  · simp [hforeign, Nat.pos_of_ne_zero hforeign]

/-- A text is restored as it should be if it is visited at most once, or if
the visits after the first change nothing. -/
theorem visited_eq_namedOnce_iff (l : Legend) (s : Slot) :
    visited l.substitute s = namedOnce l s
      ↔ (2 ≤ visits s.around s.stand →
          times l.substitute (visits s.around s.stand) s.text = l.substitute s.text) := by
  have hlabel := isLabelText_iff s
  unfold visited namedOnce
  generalize visits s.around s.stand = n at hlabel
  match n with
  | 0 =>
      rw [if_neg (fun h => absurd (hlabel.1 h) (Nat.lt_irrefl 0))]
      exact ⟨fun _ h => absurd h (by decide), fun _ => rfl⟩
  | 1 =>
      rw [if_pos (hlabel.2 Nat.one_pos)]
      exact ⟨fun _ h => absurd h (by decide), fun _ => rfl⟩
  | n + 2 =>
      rw [if_pos (hlabel.2 (by omega))]
      constructor
      · intro h _
        exact congrArg Slot.text h
      · intro h
        rw [h (by omega)]

-- ============================================================== doubling

/-- The legend in which a letter stands for two of it. -/
def doubling (c : Char) : Legend where
  entries := [([c], [c, c])]
  nodup_ids := by simp

variable {c : Char} {s t : Text}

/-- The scan for a letter that stands for two doubles how often it occurs. -/
theorem count_of_scanned (h : Scanned (doubling c) s t) : t.count c = 2 * s.count c := by
  induction h with
  | nil => rfl
  | @name id name s t at_ _ ih =>
      have hentry : (id, name) ∈ [([c], [c, c])] := Legend.get?_eq_some_iff.1 at_.held
      obtain ⟨rfl, rfl⟩ := Prod.mk.inj (List.mem_singleton.1 hentry)
      rw [List.count_append, List.count_append, ih]
      simp
      omega
  | @char d s t none _ ih =>
      have hother : d ≠ c := by
        rintro rfl
        exact none [d] List.mem_cons_self (List.prefix_append [d] s)
      rw [List.count_cons_of_ne hother, List.count_cons_of_ne hother, ih]

theorem nil_not_mem_doubling (c : Char) : [] ∉ (doubling c).ids := by
  show [] ∉ [[c]]
  simp

theorem count_doubling (c : Char) (s : Text) :
    ((doubling c).substitute s).count c = 2 * s.count c :=
  count_of_scanned ((Legend.substitute_eq_iff (nil_not_mem_doubling c)).1 rfl)

/-- A letter that occurs occurs more often after each visit. -/
theorem count_lt_times (hc : 0 < s.count c) (n : Nat) :
    s.count c < (times (doubling c).substitute (n + 1) s).count c := by
  have honce := count_doubling c s
  induction n generalizing s with
  | zero =>
      show s.count c < ((doubling c).substitute s).count c
      omega
  | succ n ih =>
      have hmore := @ih ((doubling c).substitute s) (by omega) (count_doubling c _)
      rw [times]
      omega

/-- A second visit shows: what two visits or more make of a text that is
not empty is, for some legend, not what one makes of it. -/
theorem eq_nil_of_times_doubling {n : Nat} (hn : 2 ≤ n)
    (h : ∀ c, times (doubling c).substitute n s = (doubling c).substitute s) : s = [] := by
  cases s with
  | nil => rfl
  | cons c s =>
      obtain ⟨m, rfl⟩ := Nat.exists_eq_add_of_le hn
      have hoccurs : 0 < ((doubling c).substitute (c :: s)).count c := by
        rw [count_doubling, List.count_cons_self]
        omega
      have hlt := count_lt_times hoccurs m
      have heq := h c
      rw [Nat.add_comm, times] at heq
      rw [heq] at hlt
      exact absurd hlt (Nat.lt_irrefl _)

-- ============================================================ the whole

/-- Names are put into each text of a drawing as often as there are foreign
objects around it, and into a plain label outside of them once. So each
label is restored as it should be, by one scan of what it was, exactly if
the visits after the first change nothing; and whatever the legend,
exactly if no text stands inside of two foreign objects. -/
theorem named_once_iff (nowrap : Bool) (e : Element) :
    (∀ l : Legend, (restore l nowrap e).slots = e.slots.map (visited l.substitute))
      ∧ (∀ l : Legend, (restore l nowrap e).slots = e.slots.map (namedOnce l)
          ↔ ∀ s ∈ e.slots, 2 ≤ visits s.around s.stand →
              times l.substitute (visits s.around s.stand) s.text = l.substitute s.text)
      ∧ ((∀ l : Legend, [] ∉ l.ids → (restore l nowrap e).slots = e.slots.map (namedOnce l))
          ↔ ∀ s ∈ e.slots, 2 ≤ visits s.around s.stand → s.text = []) := by
  have hiff : ∀ l : Legend, (restore l nowrap e).slots = e.slots.map (namedOnce l)
      ↔ ∀ s ∈ e.slots, 2 ≤ visits s.around s.stand →
          times l.substitute (visits s.around s.stand) s.text = l.substitute s.text := by
    intro l
    rw [slots_restore, List.map_inj_left]
    exact forall₂_congr fun s _ => visited_eq_namedOnce_iff l s
  refine ⟨fun l => slots_restore l nowrap e, hiff, ?_, ?_⟩
  · intro h s hs hvisits
    exact eq_nil_of_times_doubling hvisits fun c =>
      (hiff (doubling c)).1 (h (doubling c) (nil_not_mem_doubling c)) s hs hvisits
  · intro h l _
    refine (hiff l).2 fun s hs hvisits => ?_
    have hnil : l.substitute [] = [] := rfl
    rw [h s hs hvisits, times_eq_self hnil, hnil]

-- ============================================================== twofold

/-- A drawing with a foreign object inside another one, and a text in the
inner. -/
def twofold : Element where
  tag := Markup.svgName "svg"
  inner := .ofElements
    [{ tag := Markup.svgName "foreignObject"
       inner := .ofElements
        [{ tag := Markup.svgName "foreignObject"
           inner := .ofElements
            [{ tag := Markup.svgName "text", inner := .text "a".toList }] }] }]

/-- How that drawing is written. -/
def twofoldText : Text :=
  ("<svg xmlns=\"http://www.w3.org/2000/svg\"><foreignObject><foreignObject>" ++
    "<text>a</text></foreignObject></foreignObject></svg>").toList

/-- A name is put into a name: of `a`, which stands for `aa`, restoration
makes `aaaa` where the drawing is to show `aa`. -/
theorem twofold_named_twice :
    readDrawing twofoldText = .ok twofold
      ∧ [] ∉ (doubling 'a').ids
      ∧ (restore (doubling 'a') false twofold).labels [] = [{ role := [], text := "aaaa".toList }]
      ∧ (restore (doubling 'a') false twofold).slots
          ≠ twofold.slots.map (namedOnce (doubling 'a')) := by
  have hne := nil_not_mem_doubling 'a'
  have hread : readDrawing twofoldText = .ok twofold := by
    have hplain : Markup.PlainAttributes.Of [] := ⟨by simp, by simp⟩
    have hdrawn : twofold.Drawn :=
      { space := rfl
        word := by decide
        attrs := hplain
        inner :=
          ⟨by decide, hplain, ⟨by decide, hplain, ⟨by decide, hplain, trivial, trivial⟩,
            trivial⟩, trivial⟩ }
    have hwritten : twofold.write = twofoldText := by decide +kernel
    rw [← hwritten]
    exact (readDrawing_write hdrawn).2 ⟨by decide, rfl⟩
  have hfirst : (doubling 'a').substitute "a".toList = "aa".toList :=
    Legend.substitute_id hne (by decide)
  have hsecond : (doubling 'a').substitute "aa".toList = "aaaa".toList := by
    have hat : ∀ s : Text, LongestAt (doubling 'a') (['a'] ++ s) ['a'] ['a', 'a'] := by
      intro s
      refine ⟨by decide, List.prefix_append _ _, ?_⟩
      intro other hother _
      exact Nat.le_of_eq (congrArg List.length (List.mem_singleton.1 hother))
    exact (Legend.substitute_eq_iff hne).2 (.name (hat ['a']) (.name (hat []) .nil))
  have hlabels : (restore (doubling 'a') false twofold).labels []
      = [{ role := [], text := "aaaa".toList }] := by
    show [({ role := [], text := (doubling 'a').substitute ((doubling 'a').substitute
      "a".toList) } : Markup.Label)] = _
    rw [hfirst, hsecond]
  refine ⟨hread, hne, hlabels, ?_⟩
  rw [slots_restore]
  intro hsame
  have hall := List.map_inj_left.1 hsame
    { around := [Markup.svgName "text", Markup.svgName "foreignObject",
        Markup.svgName "foreignObject", Markup.svgName "svg"]
      stand := .whole, text := "a".toList } (by decide)
  have htext : (doubling 'a').substitute ((doubling 'a').substitute "a".toList)
      = (doubling 'a').substitute "a".toList := congrArg Slot.text hall
  rw [hfirst, hsecond] at htext
  exact absurd htext (by decide)

end FreeLabel.Restore
