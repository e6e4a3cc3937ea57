/-
What of a drawing is read: its labels, before and after names are put in.

# Labels

A label is a text element of a drawing, or a paragraph of hypertext, that
holds text; its role is that of the innermost element that has one, the
label itself or an element around it. `Content.labels` collects them in
document order.

# Once

Restoration visits a text as often as there are foreign objects around it,
and plain labels outside of them once. `Content.Once` says of content that
every label in it is visited once. Then restoration changes each label's
text as the legend says, and neither the labels' order nor their roles
(`labels_restore`). Keeping labels from being wrapped changes styles only,
and these are no roles.
-/
import FreeLabel.Proofs.Association
import FreeLabel.Proofs.Markup.Reading
import FreeLabel.Proofs.Restore.Scanned
import FreeLabel.Restore.Drawing

namespace FreeLabel.Markup

-- ================================================================ labels

/-- A text that a drawing shows. -/
structure Label where
  /-- What the text is, in the words of style sheets. -/
  role : Text
  /-- The text. -/
  text : Text
deriving DecidableEq, Repr

/-- A label with a function applied to its text. -/
def Label.map (g : Text → Text) (l : Label) : Label := { l with text := g l.text }

/-- The name of the attribute that tells an element's role. -/
def roleName : Name := plainName "class"

/-- The role that attributes give, or else the one around them. -/
def roleOf (attrs : Attributes) (around : Text) : Text := (attrs.lookup roleName).getD around

/-- Whether an element shows the text in it. -/
def isLabel (tag : Name) : Bool := tag = svgName "text" || tag = xhtmlName "p"

/-- The text that content consists of, if it holds no element. -/
def Content.whole : Content → List Text
  | .text t => [t]
  | .element .. => []

/-- The labels in content, in document order. `role` is the role of the
element that holds the content. -/
def Content.labels (role : Text) : Content → List Label
  | .text _ => []
  | .element _ tag attrs inner after =>
    (if isLabel tag then
        inner.whole.map fun t => { role := roleOf attrs role, text := t }
      else []) ++
      inner.labels (roleOf attrs role) ++ after.labels role

/-- The labels in an element. -/
def Element.labels (role : Text) (e : Element) : List Label :=
  (Content.cons e (.text [])).labels role

theorem Content.labels_ofElements (role : Text) (es : List Element) :
    (Content.ofElements es).labels role = es.flatMap (Element.labels role) := by
  induction es with
  | nil => rfl
  | cons e es ih =>
      rw [List.flatMap_cons, ← ih]
      simp [ofElements, cons, Element.labels, labels]

/-- Changing all texts changes the labels' texts. -/
theorem Content.labels_mapTexts (g : Text → Text) (role : Text) (c : Content) :
    (c.mapTexts g).labels role = (c.labels role).map (Label.map g) := by
  induction c generalizing role with
  | text t => rfl
  | element before tag attrs inner after ihInner ihAfter =>
      have hwhole : (inner.mapTexts g).whole = inner.whole.map g := by
        cases inner <;> rfl
      rw [mapTexts, labels, labels, ihInner, ihAfter, hwhole]
      by_cases htag : isLabel tag = true
      · simp [htag, Label.map]
      · simp [htag]

theorem Element.labels_mapTexts (g : Text → Text) (role : Text) (e : Element) :
    (e.mapTexts g).labels role = (e.labels role).map (Label.map g) := by
  have hcons := Content.labels_mapTexts g role (Content.cons e (.text []))
  simpa [Element.labels, Element.mapTexts, Content.cons, Content.mapTexts, Content.labels]
    using hcons

end FreeLabel.Markup

namespace FreeLabel.Restore

open Markup (Attributes Content Element Label Name isLabel roleName roleOf)
open Naming (Legend)

-- ================================================================== once

/-- Every label in content inside `depth` foreign objects is visited
once. -/
def Once (depth : Nat) : Content → Prop
  | .text _ => True
  | .element _ tag _ inner after =>
    (isLabel tag = true → leadCount depth tag (.text []) = 1) ∧
      Once (depthInside depth tag) inner ∧ Once depth after

/-- Every label in an element inside `depth` foreign objects is visited
once. -/
def OnceIn (depth : Nat) (e : Element) : Prop := Once depth (Content.cons e (.text []))

theorem once_ofElements {depth : Nat} {es : List Element}
    (h : ∀ e ∈ es, OnceIn depth e) : Once depth (Content.ofElements es) := by
  induction es with
  | nil => trivial
  | cons e es ih =>
      obtain ⟨hlabel, hinner, -⟩ := h e List.mem_cons_self
      exact ⟨hlabel, hinner, ih fun d hd => h d (List.mem_cons_of_mem e hd)⟩

/-- How often a label is visited does not depend on what texts say. -/
theorem once_mapTexts {g : Text → Text} {depth : Nat} {c : Content} (h : Once depth c) :
    Once depth (c.mapTexts g) := by
  induction c generalizing depth with
  | text t => trivial
  | element before tag attrs inner after ihInner ihAfter =>
      exact ⟨h.1, ihInner h.2.1, ihAfter h.2.2⟩

-- ========================================================== putting in

/-- What a function does not change, it does not change however often. -/
theorem times_eq_self {f : α → α} {a : α} (h : f a = a) (n : Nat) : times f n a = a := by
  induction n with
  | zero => rfl
  | succ n ih => rw [times, h, ih]

/-- Labels that are visited once are changed once. -/
theorem labels_mapLabels {f : Text → Text} {depth : Nat} (lead : Nat) {c : Content}
    (role : Text) (h : Once depth c) :
    (mapLabels f depth lead c).labels role = (c.labels role).map (Label.map f) := by
  induction c generalizing depth lead role with
  | text t => rfl
  | element before tag attrs inner after ihInner ihAfter =>
      obtain ⟨hlabel, hinner, hafter⟩ := h
      rw [mapLabels, Content.labels, Content.labels, ihInner _ _ hinner, ihAfter _ _ hafter]
      by_cases htag : isLabel tag = true
      · have hwhole : (mapLabels f (depthInside depth tag) (leadCount depth tag inner)
            inner).whole = inner.whole.map f := by
          cases inner with
          | text t =>
              have hlead : leadCount depth tag (.text t) = 1 := hlabel htag
              simp [mapLabels, Content.whole, hlead, times]
          | element => rfl
        rw [hwhole]
        simp [htag, Label.map]
      · simp [htag]

-- ============================================================== styles

/-- What is found among attributes of which one has been set. -/
theorem lookup_setAttribute (attrs : Attributes) (name : Name) (value : Text) (other : Name) :
    (setAttribute attrs name value).lookup other
      = if other = name then some value else attrs.lookup other :=
  lookup_set value attrs name other

theorem roleOf_addStyle (declaration : String) (attrs : Attributes) (role : Text) :
    roleOf (addStyle declaration attrs) role = roleOf attrs role := by
  unfold roleOf addStyle
  rw [lookup_setAttribute, if_neg (by decide)]

theorem roleOf_unwrap (depth : Nat) (tag : Name) (attrs : Attributes) (role : Text) :
    roleOf (unwrap depth tag attrs) role = roleOf attrs role := by
  have htimes : ∀ n attrs, roleOf (times (addStyle "white-space: nowrap") n attrs) role
      = roleOf attrs role := by
    intro n
    induction n with
    | zero => exact fun _ => rfl
    | succ n ih =>
        intro attrs
        rw [times, ih, roleOf_addStyle]
  unfold unwrap
  split
  · exact roleOf_addStyle ..
  · split
    · exact htimes depth attrs
    · rfl

/-- Keeping labels from being wrapped changes none. -/
theorem labels_unwrapContent (depth : Nat) (c : Content) (role : Text) :
    (unwrapContent depth c).labels role = c.labels role := by
  induction c generalizing depth role with
  | text t => rfl
  | element before tag attrs inner after ihInner ihAfter =>
      have hwhole : ∀ d, (unwrapContent d inner).whole = inner.whole := by
        intro d
        cases inner <;> rfl
      rw [unwrapContent, Content.labels, Content.labels, ihInner, ihAfter, roleOf_unwrap,
        hwhole]

-- ============================================================ the whole

/-- Restoration changes the texts of labels as the legend says, and no
label otherwise. -/
theorem labels_restore {l : Legend} {e : Element} (h : OnceIn 0 e) (nowrap : Bool)
    (role : Text) :
    (restore l nowrap e).labels role = (e.labels role).map (Label.map l.substitute) := by
  unfold restore
  split
  · next hempty =>
      have hself : l.substitute = id := funext (Legend.substitute_of_isEmpty hempty)
      have hmap : Label.map l.substitute = id := by
        rw [hself]
        rfl
      rw [hmap, List.map_id]
  · have hnamed : (mapElementLabels l.substitute e).labels role
        = (e.labels role).map (Label.map l.substitute) :=
      labels_mapLabels 0 role h
    cases nowrap with
    | false => exact hnamed
    | true =>
        refine Eq.trans ?_ hnamed
        exact labels_unwrapContent 0 (Content.cons (mapElementLabels l.substitute e)
          (.text [])) role

end FreeLabel.Restore
