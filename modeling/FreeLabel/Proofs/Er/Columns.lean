/-
The identifier of a name: how the search for it ends, what it looks like,
and that a column drawn for it has room for the name.

# The search

An allocator tries the candidates for a name in order, and nothing in that
tells when it is done (`Finds`). It is done after at most one try more than
there are issued identifiers, whatever was issued before
(`choose_eq_candidate`): candidates are pairwise different, and only issued
ones are refused.

# The width

An attribute asks for an identifier that exceeds its name by the padding of
its pass. The base of the candidates is made that long, and a number behind
it makes it longer only. It does not matter here how long the identifier of
the name is by itself, which may be more or less than the name: a letter
may be spelled out as two, and runs of other characters are one low line.
-/
import FreeLabel.Proofs.Pass

namespace FreeLabel

open Naming (Allocator Legend isIdentifier)
open Naming.Allocator (Request ofLegend)

-- ============================================================== requests

namespace Naming.Allocator

/-- The length that a request asks for, which need not give one. Less than
nothing is asked for as nothing is. -/
def asked (least : Option Int) : Nat := (least.getD 0).toNat

theorem le_asked {least : Option Int} {m : Int} (hm : m ∈ least) : m ≤ asked least := by
  rw [asked, Option.mem_def.1 hm, Option.getD_some]
  omega

/-- What is refused was issued for another name, and what is not refused
was not issued or stands for the name. -/
theorem isFreeFor_eq_false_iff {a : Allocator} {name id : Text} :
    a.isFreeFor name id = false ↔ id ∈ a.used ∧ a.legend.get? id ≠ some name := by
  simp [isFreeFor]

theorem isFreeFor_eq_true_iff {a : Allocator} {name id : Text} :
    a.isFreeFor name id = true ↔ id ∉ a.used ∨ a.legend.get? id = some name := by
  simp [isFreeFor]

/-- The search for the identifier of a name, if need be of some length, ends
at candidate `k`, which is `id`. -/
structure SearchEnds (a : Allocator) (name : Text) (least : Option Int) (k : Nat) (id : Text) :
    Prop where
  candidate : id = candidate (base name (asked least)) k
  /-- It takes one try more than there are candidates before this one. -/
  search : Finds (a.isFreeFor name) (base name (asked least)) 0 (k + 1) id
  few : k ≤ a.used.length
  answer : (a.allocate name (asked least)).1 = .ok id
  /-- Every candidate before it was issued, and stands for another name. -/
  refused : ∀ i < k, Allocator.candidate (base name (asked least)) i ∈ a.used
    ∧ a.legend.get? (Allocator.candidate (base name (asked least)) i) ≠ some name
  free : id ∉ a.used ∨ a.legend.get? id = some name
  form : isIdentifier id = true
  width : ∀ m ∈ least, m ≤ id.length

theorem Exact.searchEnds {a : Allocator} (h : a.Exact) (name : Text) (least : Option Int) :
    ∃ k id, a.SearchEnds name least k id := by
  obtain ⟨k, hk, hchosen, hbelow, hfree⟩ := choose_eq_candidate a name (asked least)
  obtain ⟨hanswer, -, -, -⟩ := h.allocate name (asked least)
  refine ⟨k, _, rfl, ?search, hk, hchosen ▸ congrArg Prod.fst hanswer,
    fun i hi => isFreeFor_eq_false_iff.1 (hbelow i hi), isFreeFor_eq_true_iff.1 hfree,
    isIdentifier_candidate name _ k, ?width⟩
  case search =>
    have hfinds : Finds (a.isFreeFor name) (base name (asked least)) 0 (k + 1)
        (Allocator.candidate (base name (asked least)) (0 + k)) :=
      finds_candidate (by simpa using hbelow) (by simpa using hfree)
    rwa [Nat.zero_add] at hfinds
  case width =>
    intro m hm
    have hasked := le_asked hm
    have hle := le_length_candidate name (asked least) k
    omega

end Naming.Allocator

-- ============================================================ attributes

namespace Er

variable {c : Context} {line : Text} {att : Attribute}

/-- The identifier that is due to an attribute. -/
def Attribute.dueId (att : Attribute) (c : Context) : Text :=
  c.allocator.choose att.name (att.name.length + c.padding).toNat

/-- What stands behind the identifier of an attribute. -/
def Attribute.tail (att : Attribute) : Text :=
  [' '] ++ att.type ++ (att.key.elim [] fun k => ' ' :: k)
    ++ (att.comment.elim [] fun t => [' ', '"'] ++ t ++ ['"'])

/-- What becomes of the line of an attribute. -/
theorem translateAttribute_eq (hc : c.allocator.Exact)
    (hatt : Attribute.ofLine? line = some att) (lineNo : Int) :
    ∃ d, translateAttribute lineNo line c
        = .ok (Text.indent line ++ att.dueId c ++ att.tail) d
      ∧ d.legend.get? (att.dueId c) = some att.name := by
  obtain ⟨-, -, -, hget⟩ := hc.allocate att.name (att.name.length + c.padding).toNat
  refine ⟨{ c with allocator := c.allocator.issue att.name _ }, ?_, hget⟩
  rw [translateAttribute, hatt]
  simp only [Attribute.translate]
  rw [Pass.get_bind]
  simp only [Bind.bind, EStateM.bind, Pass.allocate_eq_of_exact hc]
  simp only [Attribute.tail, List.append_assoc]
  rfl

/-- It exceeds the name by the padding. -/
theorem Attribute.le_length_dueId (att : Attribute) (c : Context) :
    att.name.length + c.padding ≤ (att.dueId c).length := by
  obtain ⟨k, -, heq, -, -⟩ :=
    Allocator.choose_eq_candidate c.allocator att.name (att.name.length + c.padding).toNat
  have hle := Allocator.le_length_candidate att.name (att.name.length + c.padding).toNat k
  rw [Attribute.dueId, heq]
  omega

/-- Let an allocator have answered any requests, on any legend. The search
for the identifier of a name, if need be of some length, ends after at most
one try more than there are issued identifiers, at the first of the
candidates that was not issued or stands for the name. That is the answer.
It begins with a letter and consists of letters, digits and low lines, all
ASCII, and it is as long as was asked for. So whatever else a pass owns, the
line of an attribute goes well, with an identifier that then stands for the
attribute's name and that exceeds the name by the padding of the pass. -/
theorem search_ends_wide_enough (l : Legend) (rs : List Request) :
    (∀ (name : Text) (least : Option Int),
        ∃ k id, ((ofLegend l).issueAll rs).SearchEnds name least k id)
      ∧ ∀ (c : Context) (lineNo : Int) (line : Text) (att : Attribute),
          c.allocator = (ofLegend l).issueAll rs → Attribute.ofLine? line = some att →
          ∃ id d, translateAttribute lineNo line c
              = .ok (Text.indent line ++ id ++ att.tail) d
            ∧ isIdentifier id = true ∧ d.legend.get? id = some att.name
            ∧ att.name.length + c.padding ≤ id.length := by
  have hexact := ((Allocator.exact_ofLegend l).issueAll rs).1
  refine ⟨hexact.searchEnds, ?_⟩
  intro c lineNo line att hc hatt
  rw [← hc] at hexact
  obtain ⟨d, hline, hget⟩ := translateAttribute_eq hexact hatt lineNo
  exact ⟨att.dueId c, d, hline, Allocator.isIdentifier_choose _ _ _, hget,
    att.le_length_dueId c⟩

end Er

end FreeLabel
