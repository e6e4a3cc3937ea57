/-
What restoration leaves alone.

# Elements

`Element.outline` is a drawing without texts and attributes: its elements
with their names, one inside the other and in their order.
`Element.members` lists the elements with their attributes, each with the
names of the elements around it. Restoration keeps the outline. It keeps
all attributes too, unless labels are to be kept from being wrapped; then
the style of a foreign object gets longer, and so does that of an element
that lays out a label inside of one (`Member.isStyled`). A style is not
replaced: without the blanks around it, it stays at the beginning of the
new one (`Restyled`).

# Texts

A text that is no label's stays as it is. That goes for the text that a
foreign object begins with and for the one behind it, if it stands in no
other (`isLabelText_foreign`). `restore_frame` puts all of this together.
-/
import Mathlib.Data.List.Forall2
import FreeLabel.Proofs.Restore.Slots
import FreeLabel.Proofs.Restore.Structure

namespace FreeLabel.Markup

-- =============================================================== members

/-- Content without texts and attributes. -/
def Content.outline : Content → Content
  | .text _ => .text []
  | .element _ tag _ inner after => .element [] tag [] inner.outline after.outline

/-- An element without texts and attributes: the elements in it, with their
names, one inside the other and in their order. -/
def Element.outline (e : Element) : Element :=
  { e with attrs := [], inner := e.inner.outline }

/-- An element in a drawing, and where it stands. -/
structure Member where
  /-- The names of the elements around it, from the innermost on. -/
  around : List Name
  /-- Its name. -/
  tag : Name
  /-- Its attributes. -/
  attrs : Attributes
deriving DecidableEq, Repr

/-- The elements in content, in document order. `around` are the names of
the elements around the content. -/
def Content.members (around : List Name) : Content → List Member
  | .text _ => []
  | .element _ tag attrs inner after =>
    { around := around, tag := tag, attrs := attrs } ::
      (inner.members (tag :: around) ++ after.members around)

/-- An element and those in it, in document order. -/
def Element.members (e : Element) : List Member :=
  { around := [], tag := e.tag, attrs := e.attrs } :: e.inner.members [e.tag]

end FreeLabel.Markup

namespace FreeLabel.Restore

open Markup (Attributes Content Element Member Name Slot Stand)
open Naming (Legend)

-- ================================================================ styles

/-- A style without the blanks around it begins the one with a declaration
more. -/
theorem trim_prefix_extendStyle (style declaration : Text) :
    Text.trim style <+: extendStyle style declaration := by
  have htrim := Text.trim_trim style
  unfold extendStyle
  simp only
  generalize Text.trim style = trimmed at htrim
  by_cases hnil : trimmed = []
  · rw [hnil]
    exact List.nil_prefix
  · have hextended : ∀ gap : Text,
        Text.trim (trimmed ++ gap ++ [' '] ++ declaration ++ [';'])
          = trimmed ++ (gap ++ [' '] ++ declaration ++ [';']) := by
      intro gap
      have hbetween := Text.trim_between hnil htrim (t := [';']) (by simp) (by decide)
        (gap ++ [' '] ++ declaration)
      simpa only [List.append_assoc] using hbetween
    split
    · have hnothing := hextended []
      rw [List.append_nil] at hnothing
      rw [hnothing]
      exact List.prefix_append _ _
    · rw [hextended [';']]
      exact List.prefix_append _ _

theorem trim_extendStyle (style declaration : Text) :
    Text.trim (extendStyle style declaration) = extendStyle style declaration :=
  Text.trim_trim _

variable {attrs attrs' attrs'' : Attributes}

theorem filter_setAttribute (attrs : Attributes) (name : Name) (value : Text) :
    (setAttribute attrs name value).filter (fun a => a.1 ≠ name)
      = attrs.filter fun a => a.1 ≠ name := by
  unfold setAttribute
  split
  · clear * -
    induction attrs with
    | nil => rfl
    | cons a attrs ih =>
        rw [List.map_cons]
        by_cases ha : a.1 = name
        · rw [if_pos ha, List.filter_cons_of_neg (by simp), List.filter_cons_of_neg (by simp [ha]),
            ih]
        · rw [if_neg ha, List.filter_cons_of_pos (by simp [ha]),
            List.filter_cons_of_pos (by simp [ha]), ih]
  · rw [List.filter_append, List.filter_cons_of_neg (by simp)]
    exact List.append_nil _

/-- Attributes of which only the style is new: it begins with the one
before, without the blanks around it. -/
structure Restyled (attrs attrs' : Attributes) : Prop where
  others : attrs'.filter (fun a => a.1 ≠ styleName) = attrs.filter fun a => a.1 ≠ styleName
  style : ∃ style, attrs'.lookup styleName = some style ∧ Text.trim style = style
    ∧ Text.trim ((attrs.lookup styleName).getD []) <+: style

theorem restyled_addStyle (declaration : String) (attrs : Attributes) :
    Restyled attrs (addStyle declaration attrs) where
  others := filter_setAttribute _ _ _
  style := by
    refine ⟨extendStyle ((attrs.lookup styleName).getD []) declaration.toList, ?_,
      trim_extendStyle _ _, trim_prefix_extendStyle _ _⟩
    rw [addStyle, lookup_setAttribute, if_pos rfl]

theorem Restyled.trans (h : Restyled attrs attrs') (h' : Restyled attrs' attrs'') :
    Restyled attrs attrs'' := by
  obtain ⟨style, hstyle, htrim, hprefix⟩ := h.style
  obtain ⟨style', hstyle', htrim', hprefix'⟩ := h'.style
  rw [hstyle, Option.getD_some, htrim] at hprefix'
  exact
    { others := h'.others.trans h.others
      style := ⟨style', hstyle', htrim', hprefix.trans hprefix'⟩ }

/-- The style is extended as often as there are foreign objects around. -/
theorem restyled_times (declaration : String) (n : Nat) (attrs : Attributes) :
    Restyled attrs (times (addStyle declaration) (n + 1) attrs) := by
  induction n generalizing attrs with
  | zero => exact restyled_addStyle declaration attrs
  | succ n ih =>
      rw [times]
      exact (restyled_addStyle declaration attrs).trans (ih _)

-- =============================================================== members

/-- Whether an element's style may get longer: it is a foreign object, or
it lays out a label inside of one. -/
def Member.isStyled (p : Member) : Bool :=
  isForeign p.tag || isLabelPart p.tag && p.around.any isForeign

/-- An element that is kept from wrapping or clipping its label. -/
def unwrapMember (p : Member) : Member :=
  { p with attrs := unwrap (p.around.countP isForeign) p.tag p.attrs }

/-- Two elements are the same, up to the style if it may get longer. -/
def SameMember (p q : Member) : Prop :=
  q = p
    ∨ Member.isStyled p = true
      ∧ ∃ attrs, q = { p with attrs := attrs } ∧ Restyled p.attrs attrs

theorem sameMember_unwrapMember (p : Member) : SameMember p (unwrapMember p) := by
  obtain ⟨around, tag, attrs⟩ := p
  unfold SameMember unwrapMember unwrap Member.isStyled
  simp only
  split
  next hforeign =>
    exact .inr ⟨by rw [hforeign]; rfl, _, rfl, restyled_addStyle _ _⟩
  next =>
    split
    next hpart =>
      cases hcount : around.countP isForeign with
      | zero => exact .inl rfl
      | succ n =>
          have hany : around.any isForeign = true := by
            obtain ⟨name, hname, hforeign⟩ := List.countP_pos_iff.1
              (Nat.lt_of_lt_of_eq (Nat.succ_pos n) hcount.symm)
            exact List.any_eq_true.2 ⟨name, hname, hforeign⟩
          refine .inr ⟨?_, _, rfl, restyled_times _ n attrs⟩
          rw [hpart, hany, Bool.and_true, Bool.or_true]
    next => exact .inl rfl

/-- Names are put into texts, not into elements. -/
theorem members_mapLabels (f : Text → Text) (depth lead : Nat) (around : List Name) (c : Content) :
    (mapLabels f depth lead c).members around = c.members around := by
  induction c generalizing depth lead around with
  | text t => rfl
  | element before tag attrs inner after ihInner ihAfter =>
      rw [mapLabels, Content.members, Content.members, ihInner, ihAfter]

theorem members_unwrapContent (around : List Name) (c : Content) :
    (unwrapContent (around.countP isForeign) c).members around
      = (c.members around).map unwrapMember := by
  induction c generalizing around with
  | text t => rfl
  | element before tag attrs inner after ihInner ihAfter =>
      rw [unwrapContent, Content.members, Content.members, depthInside_eq, ihInner, ihAfter,
        List.map_cons, List.map_append]
      rfl

theorem sameMember_restore (l : Legend) (nowrap : Bool) (e : Element) :
    List.Forall₂ SameMember e.members (restore l nowrap e).members := by
  have hsame : List.Forall₂ SameMember e.members e.members :=
    List.forall₂_same.2 fun _ _ => .inl rfl
  have hnamed : (mapElementLabels l.substitute e).members = e.members := by
    unfold Element.members
    exact congrArg (List.cons _) (members_mapLabels _ _ _ _ _)
  unfold restore
  split
  next => exact hsame
  next =>
    cases nowrap with
    | false => exact hnamed ▸ hsame
    | true =>
        have hunwrapped : (unwrapElement (mapElementLabels l.substitute e)).members
            = e.members.map unwrapMember := by
          rw [← hnamed]
          unfold Element.members
          rw [List.map_cons, ← members_unwrapContent, ← depthInside_eq]
          rfl
        rw [if_pos rfl, hunwrapped, List.forall₂_map_right_iff]
        exact List.forall₂_same.2 fun p _ => sameMember_unwrapMember p

-- =============================================================== outlines

theorem outline_mapLabels (f : Text → Text) (depth lead : Nat) (c : Content) :
    (mapLabels f depth lead c).outline = c.outline := by
  induction c generalizing depth lead with
  | text t => rfl
  | element before tag attrs inner after ihInner ihAfter =>
      rw [mapLabels, Content.outline, Content.outline, ihInner, ihAfter]

theorem outline_unwrapContent (depth : Nat) (c : Content) :
    (unwrapContent depth c).outline = c.outline := by
  induction c generalizing depth with
  | text t => rfl
  | element before tag attrs inner after ihInner ihAfter =>
      rw [unwrapContent, Content.outline, Content.outline, ihInner, ihAfter]

theorem outline_restore (l : Legend) (nowrap : Bool) (e : Element) :
    (restore l nowrap e).outline = e.outline := by
  have hnamed : (mapElementLabels l.substitute e).outline = e.outline := by
    unfold mapElementLabels Element.outline
    rw [outline_mapLabels]
  unfold restore
  split
  next => rfl
  next =>
    cases nowrap with
    | false => exact hnamed
    | true =>
        refine Eq.trans ?_ hnamed
        show ({ mapElementLabels l.substitute e with
          attrs := [], inner := (unwrapContent _ _).outline } : Element) = _
        rw [outline_unwrapContent]
        rfl

-- ================================================================== texts

/-- Two texts stand at one place, and are the same if they are no
label's. -/
def SameUnlessLabel (s t : Slot) : Prop :=
  t.around = s.around ∧ t.stand = s.stand ∧ (isLabelText s = false → t = s)

theorem sameUnlessLabel_restore (l : Legend) (nowrap : Bool) (e : Element) :
    List.Forall₂ SameUnlessLabel e.slots (restore l nowrap e).slots := by
  rw [slots_restore, List.forall₂_map_right_iff]
  refine List.forall₂_same.2 fun s _ => ⟨rfl, rfl, fun hlabel => ?_⟩
  have hvisits : visits s.around s.stand = 0 := by
    have hnone := mt (isLabelText_iff s).2 (by rw [hlabel]; exact Bool.false_ne_true)
    omega
  unfold visited
  rw [hvisits]
  rfl

/-- Neither the text that a foreign object begins with nor the one behind
it is a label's, if it stands in no other foreign object. -/
theorem isLabelText_foreign {around : List Name} {tag : Name} (htag : isForeign tag = true)
    (haround : ∀ name ∈ around, isForeign name = false) (t : Text) :
    (∀ stand, stand ≠ Stand.behind → isLabelText ⟨tag :: around, stand, t⟩ = false)
      ∧ isLabelText ⟨around, .behind, t⟩ = false := by
  have hcount : around.countP isForeign = 0 := by
    rw [List.countP_eq_zero]
    intro name hname
    rw [haround name hname]
    exact Bool.false_ne_true
  have hplain : isPlainLabel tag = false := by
    unfold isForeign at htag
    unfold isPlainLabel
    rw [of_decide_eq_true htag]
    decide
  constructor
  · intro stand hstand
    cases stand with
    | behind => exact absurd rfl hstand
    | whole => simp [isLabelText, foreignObjects, isPlain, hcount, hplain]
    | lead => simp [isLabelText, foreignObjects, isPlain, hcount]
  · simp [isLabelText, foreignObjects, isPlain, hcount]

-- ============================================================== the whole

/-- Restoration leaves everything alone but the texts of labels and some
styles. The elements keep their names, their order and their places; all
attributes are kept if labels may be wrapped, and else the style alone gets
longer, of foreign objects and of what lays out labels inside of them; a
text that is no label's stays as it is, as does that of a foreign object
inside of no other, and what stands behind it. Without names to put in, the
whole drawing stays as it is. -/
theorem restore_frame (l : Legend) (nowrap : Bool) (e : Element) :
    (restore l nowrap e).outline = e.outline
      ∧ (restore l false e).bare = e.bare
      ∧ List.Forall₂ SameMember e.members (restore l nowrap e).members
      ∧ List.Forall₂ SameUnlessLabel e.slots (restore l nowrap e).slots
      ∧ (∀ around tag t, isForeign tag = true → (∀ name ∈ around, isForeign name = false) →
          (∀ stand, stand ≠ Stand.behind → isLabelText ⟨tag :: around, stand, t⟩ = false)
            ∧ isLabelText ⟨around, .behind, t⟩ = false)
      ∧ (l.entries = [] → restore l nowrap e = e) := by
  refine ⟨outline_restore l nowrap e, bare_restore l e, sameMember_restore l nowrap e,
    sameUnlessLabel_restore l nowrap e,
    fun around tag t htag haround => isLabelText_foreign htag haround t, ?_⟩
  intro hempty
  unfold restore
  rw [hempty]
  rfl

end FreeLabel.Restore
