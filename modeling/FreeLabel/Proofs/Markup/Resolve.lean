/-
What a written start tag says once its prefixes are looked up: the very
name and attributes that were written.

# Which elements are meant

`Fits` holds of content, under prefixes that the writer uses and a scope
that the reader has arrived at, if each name in it is written so that
the reader, in that scope, takes it for the same name, and if the
attributes are plain: without a namespace, each name once, values written
as they are. Nothing is asked of the texts between the tags. Declarations
of namespaces are dealt with apart, for they stand in the outermost tag
only (`readAttributes_eq` covers both).
-/
import FreeLabel.Markup.Scope
import FreeLabel.Proofs.Markup.Tags

namespace FreeLabel.Markup

-- ================================================================ values

/-- A plain value is read as it is written. -/
theorem readValue_of_isPlainValue (w : Surroundings) (b : Budget) {v : Text}
    (hv : isPlainValue v = true) (read : Text) :
    readValue w b read v = .ok (v.reverse ++ read, b) := by
  induction v generalizing read with
  | nil => rw [readValue]; rfl
  | cons c v ih =>
      rw [isPlainValue, List.all_cons, Bool.and_eq_true] at hv
      have hbracket : c ≠ '<' := ne_of_isPlainChar hv.1 (by decide)
      have hamp : c ≠ '&' := ne_of_isPlainChar hv.1 (by decide)
      have hreturn : c ≠ '\r' := ne_of_isPlainChar hv.1 (by decide)
      have htab : c ≠ '\t' := ne_of_isPlainChar hv.1 (by decide)
      have hfeed : c ≠ '\n' := ne_of_isPlainChar hv.1 (by decide)
      -- of all separators only the space is plain, and it is read as one
      have hspace : (if isXmlSpace c then ' ' else c) = c := by
        by_cases hc : c = ' '
        · rw [hc]
          rfl
        · simp [isXmlSpace, hc, htab, hfeed, hreturn]
      rw [readValue, if_neg hbracket, if_neg hamp, if_neg (by simp [hreturn]),
        hspace, ih hv.2, List.reverse_cons, List.append_assoc]
      rfl

-- ============================================================ attributes

/-- What attributes add to those before them, if no rules apply. -/
def addAttributes (tag : Text) (plain : PlainAttributes) (scope : Scope) :
    List Spelled → Except Flaw (PlainAttributes × Scope)
  | [] => .ok (plain, scope)
  | (name, value) :: as => do
    let (plain, scope) ← addAttribute tag name value plain scope
    addAttributes tag plain scope as

/-- Attributes that were written plainly are read as what they say. -/
theorem readAttributes_eq (w : Surroundings) (tag : Text) {b : Budget}
    {raws : List RawAttribute}
    (hplain : ∀ a ∈ raws.map RawAttribute.spelled, a.isPlain = true)
    (seen : List RawName)
    (hnodup : ((raws.map RawAttribute.spelled).map Prod.fst).Nodup)
    (hseen : ∀ a ∈ raws.map RawAttribute.spelled, a.1 ∉ seen)
    (plain : PlainAttributes) (scope : Scope) :
    readAttributes w [] tag seen b plain scope raws
      = (addAttributes tag plain scope (raws.map RawAttribute.spelled)).map
          fun (plain, scope) => (plain, scope, b) := by
  induction raws generalizing seen plain scope with
  | nil => rfl
  | cons a raws ih =>
      simp only [List.map_cons, List.nodup_cons, List.mem_cons,
        forall_eq_or_imp] at hplain hnodup hseen
      have hvalue : a.value.value w b tag (isWorded [] a.name.spelling)
          = .ok (a.value.body, b) := by
        have := hplain.1
        rw [Spelled.isPlain, Bool.and_eq_true] at this
        unfold Literal.value
        rw [show a.value.body = a.spelled.2 from rfl,
          readValue_of_isPlainValue w b this.2]
        simp [isWorded]
      have hfresh : a.name ∉ seen := hseen.1
      rw [readAttributes, if_neg hfresh, hvalue]
      simp only [List.map_cons]
      rw [show a.spelled = (a.name, a.value.body) from rfl, addAttributes]
      cases hadd : addAttribute tag a.name a.value.body plain scope with
      | error flaw =>
          simp [bind, Except.bind, hadd, Except.map]
      | ok added =>
          obtain ⟨plain', scope'⟩ := added
          have hrest := ih hplain.2 (a.name :: seen) hnodup.2 (by
            intro d hd hmem
            rcases List.mem_cons.1 hmem with heq | hmem
            · exact hnodup.1 (List.mem_map.2 ⟨d, hd, heq⟩)
            · exact hseen.2 d hd hmem) plain' scope'
          simp only [bind, Except.bind, hadd]
          exact hrest

/-- The name of an attribute in no namespace, as it is spelled. -/
def spellBase (n : Name) : RawName := { pre := none, base := n.base }

/-- Attributes without namespaces, as they are spelled. -/
def spellAttributes (attrs : Attributes) : List Spelled :=
  attrs.map fun a => (spellBase a.1, a.2)

/-- Whether an attribute is written so that it is read as itself: in no
namespace, and no declaration of one. -/
def isPlainAttribute (a : Name × Text) : Bool :=
  a.1.space.isNone && isWord a.1.base && a.1.base != declarationWord
    && isPlainValue a.2

theorem space_of_isPlainAttribute {a : Name × Text} (h : isPlainAttribute a = true) :
    a.1.space = none := by
  simp only [isPlainAttribute, Bool.and_eq_true, Option.isNone_iff_eq_none] at h
  exact h.1.1.1

/-- Attributes that are read as themselves. -/
structure PlainAttributes.Of (attrs : Attributes) : Prop where
  plain : ∀ a ∈ attrs, isPlainAttribute a = true
  nodup : (attrs.map fun a => a.1.base).Nodup

theorem writeAttributes_eq (ps : Prefixes) {attrs : Attributes}
    (h : ∀ a ∈ attrs, isPlainAttribute a = true) :
    writeAttributes ps attrs = writeSpelled (spellAttributes attrs) := by
  induction attrs with
  | nil => rfl
  | cons a attrs ih =>
      have hspace := space_of_isPlainAttribute (h a List.mem_cons_self)
      have hrest := ih fun b hb => h b (List.mem_cons_of_mem a hb)
      unfold writeAttributes writeSpelled spellAttributes at hrest ⊢
      rw [List.flatMap_cons, hrest, List.map_cons, List.flatMap_cons]
      simp only [writeName, hspace, spellBase, RawName.spelling]

theorem isPlain_of_mem_spellAttributes {attrs : Attributes}
    (h : PlainAttributes.Of attrs) :
    ∀ a ∈ spellAttributes attrs, a.isPlain = true := by
  intro s hs
  obtain ⟨a, ha, rfl⟩ := List.mem_map.1 hs
  have := h.plain a ha
  simp only [isPlainAttribute, Bool.and_eq_true] at this
  simp [Spelled.isPlain, spellBase, RawName.isWordy, this.1.1.2, this.2]

theorem PlainAttributes.Of.nodup_spellAttributes {attrs : Attributes}
    (h : PlainAttributes.Of attrs) : ((spellAttributes attrs).map Prod.fst).Nodup := by
  have hbase : (spellAttributes attrs).map Prod.fst
      = (attrs.map fun a => a.1.base).map fun t =>
          ({ pre := none, base := t } : RawName) := by
    simp [spellAttributes, spellBase]
  rw [hbase, List.nodup_iff_pairwise_ne, List.pairwise_map]
  refine (List.nodup_iff_pairwise_ne.1 h.nodup).imp ?_
  intro s t hne heq
  exact hne (congrArg RawName.base heq)

/-- Plain attributes are added as they are; they declare nothing. -/
theorem addAttributes_spellAttributes {attrs : Attributes}
    (h : ∀ a ∈ attrs, isPlainAttribute a = true) (tag : Text)
    (plain : PlainAttributes) (scope : Scope) :
    addAttributes tag plain scope (spellAttributes attrs)
      = .ok (plain ++ spellAttributes attrs, scope) := by
  induction attrs generalizing plain with
  | nil => simp [spellAttributes, addAttributes]
  | cons a attrs ih =>
      have ha := h a List.mem_cons_self
      simp only [isPlainAttribute, Bool.and_eq_true, bne_iff_ne] at ha
      have hadd : addAttribute tag (spellBase a.1) a.2 plain scope
          = .ok (plain ++ [(spellBase a.1, a.2)], scope) := by
        simp [addAttribute, declaredPrefix?, spellBase, ha.1.2]
      have hrest := ih (fun b hb => h b (List.mem_cons_of_mem a hb))
        (plain ++ [(spellBase a.1, a.2)])
      unfold spellAttributes at hrest ⊢
      rw [List.map_cons, addAttributes, hadd]
      simp only [bind, Except.bind]
      rw [hrest, List.append_assoc]
      rfl

theorem resolveAttributes_spellAttributes {attrs : Attributes}
    (h : ∀ a ∈ attrs, isPlainAttribute a = true) (tag : Text) (scope : Scope) :
    resolveAttributes tag scope [] (spellAttributes attrs) = .ok attrs := by
  induction attrs with
  | nil => rfl
  | cons a attrs ih =>
      have hspace := space_of_isPlainAttribute (h a List.mem_cons_self)
      have hrest := ih fun b hb => h b (List.mem_cons_of_mem a hb)
      unfold spellAttributes at hrest ⊢
      rw [List.map_cons, resolveAttributes]
      simp only [spellBase] at hrest ⊢
      rw [hrest]
      obtain ⟨⟨space, base⟩, value⟩ := a
      simp only at hspace
      rw [hspace]
      rfl

-- ================================================================== tags

/-- A name is written so that it is read back in a scope: `r` is its
spelling. -/
structure Name.Fits (ps : Prefixes) (scope : Scope) (n : Name) (r : RawName) :
    Prop where
  written : writeName ps n = r.spelling
  wordy : r.isWordy = true
  resolved : ∀ place, resolveTag place scope r = .ok n

/-- Every element in the content is read back in a scope. -/
def Content.Fits (ps : Prefixes) (scope : Scope) : Content → Prop
  | .text _ => True
  | .element _ tag attrs inner after =>
    (∃ r, tag.Fits ps scope r) ∧ PlainAttributes.Of attrs
      ∧ inner.Fits ps scope ∧ after.Fits ps scope

/-- What a start tag says: the attributes `as`, of which those that declare
a namespace change the scope. -/
theorem resolve_eq (w : Surroundings) (hw : w.declarations = {}) (b : Budget)
    (place : Text) {scope inside : Scope} {r : RawName} {n : Name}
    {raws : List RawAttribute} (isWhole : Bool) {attrs : Attributes}
    {as : List Spelled} (hspelled : raws.map RawAttribute.spelled = as)
    (hplain : ∀ a ∈ as, a.isPlain = true) (hnodup : (as.map Prod.fst).Nodup)
    (hadd : addAttributes place [] scope as = .ok (spellAttributes attrs, inside))
    (hattrs : ∀ a ∈ attrs, isPlainAttribute a = true)
    (hname : resolveTag place inside r = .ok n) :
    RawTag.resolve w b place scope { name := r, attrs := raws, isWhole := isWhole }
      = .ok ({ name := n, attrs := attrs, scope := inside }, b) := by
  subst hspelled
  have hread := readAttributes_eq w place (b := b) hplain [] hnodup
    (by simp) [] scope
  unfold RawTag.resolve
  simp only [hw, Declarations.rulesFor, List.filter_nil]
  rw [hread, hadd]
  simp only [Except.map, bind, Except.bind, readDefaults]
  rw [resolveAttributes_spellAttributes hattrs]
  simp only [hname]

/-- A start tag without declarations says what was written. -/
theorem resolve_of_fits (w : Surroundings) (hw : w.declarations = {})
    (b : Budget) (place : Text) {ps : Prefixes} {scope : Scope} {r : RawName}
    {n : Name} {raws : List RawAttribute} (isWhole : Bool) {attrs : Attributes}
    (hn : n.Fits ps scope r) (hattrs : PlainAttributes.Of attrs)
    (hspelled : raws.map RawAttribute.spelled = spellAttributes attrs) :
    RawTag.resolve w b place scope { name := r, attrs := raws, isWhole := isWhole }
      = .ok ({ name := n, attrs := attrs, scope := scope }, b) := by
  have hadd := addAttributes_spellAttributes hattrs.plain place [] scope
  refine resolve_eq w hw b place isWhole hspelled (isPlain_of_mem_spellAttributes hattrs) ?_
    hadd hattrs.plain (hn.resolved place)
  exact hattrs.nodup_spellAttributes

end FreeLabel.Markup
