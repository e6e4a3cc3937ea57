/-
What an allocator promises over any number of requests: it never fails,
an identifier never changes its name, two names never share one, and a
request made again is answered as before.

# The invariant

`Exact` ties the two parts of an allocator: the issued identifiers are
those that the legend holds, in the same order. It holds at the start
(`exact_ofLegend`) and after each request (`Exact.allocate`). Under it a
candidate is free for a name exactly if the legend does not hold another
name for it (`Exact.isFreeFor_iff`), which is the very condition on which
the legend takes the entry; so no request meets a conflict.

# Why answers last

Legends only grow (`Legend.Within`). A candidate that was refused is
held for another name, and so it stays refused; the one that was chosen
is held for the name, and so it stays free. The first free candidate is
therefore the same at any later time (`Exact.choose_eq`), and every
answer of a run is what the allocator at its end would choose
(`Exact.of_mem_replies`). The statements about two answers of one run are read
off that one allocator.
-/
import FreeLabel.Proofs.Naming.Search

namespace FreeLabel.Naming

-- ============================================================== legends

namespace Legend

/-- Every entry of `l` is one of `m`, in the same place. -/
def Within (l m : Legend) : Prop := l.entries <+: m.entries

theorem Within.refl (l : Legend) : l.Within l := List.prefix_refl _

theorem Within.trans {l m n : Legend} (h : l.Within m) (h' : m.Within n) :
    l.Within n :=
  List.IsPrefix.trans h h'

/-- A larger legend holds the same names. -/
theorem Within.get? {l m : Legend} (h : l.Within m) {id name : Text}
    (hid : l.get? id = some name) : m.get? id = some name :=
  List.IsPrefix.lookup_eq_some h hid

@[simp] theorem ids_push (l : Legend) (id name : Text) (fresh : id ∉ l.ids) :
    (l.push id name fresh).ids = l.ids ++ [id] := by
  simp [ids, push]

theorem get?_push (l : Legend) (id name : Text) (fresh : id ∉ l.ids) :
    (l.push id name fresh).get? id = some name := by
  have hnone : l.entries.lookup id = none := get?_eq_none_iff.2 fresh
  unfold get? push
  rw [List.lookup_append, hnone]
  simp

/-- A new entry is the only one that is new. -/
theorem of_get?_push {l : Legend} {id id' name held : Text} (fresh : id ∉ l.ids)
    (h : (l.push id name fresh).get? id' = some held) :
    l.get? id' = some held ∨ id' = id ∧ held = name := by
  unfold get? push at h
  rw [List.lookup_append] at h
  rcases Option.or_eq_some_iff.1 h with h | ⟨-, h⟩
  · exact .inl h
  · by_cases heq : id' = id
    · rw [heq, List.lookup_cons_self] at h
      exact .inr ⟨heq, (Option.some.inj h).symm⟩
    · rw [List.lookup_cons, beq_false_of_ne heq] at h
      cases h

theorem within_push (l : Legend) (id name : Text) (fresh : id ∉ l.ids) :
    l.Within (l.push id name fresh) :=
  List.prefix_append _ _

/-- An entry is taken if the legend holds no other name for its
identifier; then the legend holds this one. -/
theorem assign_of_free {l : Legend} {id name : Text}
    (h : ∀ held, l.get? id = some held → held = name) :
    ∃ m, l.assign id name = .ok m ∧ l.Within m ∧ m.get? id = some name
      ∧ m.ids = if id ∈ l.ids then l.ids else l.ids ++ [id] := by
  unfold assign
  split
  next hnone =>
    have hfresh := get?_eq_none_iff.1 hnone
    refine ⟨_, rfl, within_push .., get?_push .., ?_⟩
    rw [ids_push, if_neg hfresh]
  next held hheld =>
    have hname := h held hheld
    have hmem : id ∈ l.ids := by
      apply Classical.byContradiction
      intro hnot
      rw [get?_eq_none_iff.2 hnot] at hheld
      cases hheld
    rw [if_pos hname, if_pos hmem]
    exact ⟨l, rfl, Within.refl l, hname ▸ hheld, rfl⟩

end Legend

namespace Allocator

-- ======================================================== the invariant

/-- The issued identifiers are those that the legend holds. -/
def Exact (a : Allocator) : Prop := a.used = a.legend.ids

theorem exact_ofLegend (l : Legend) : (ofLegend l).Exact := rfl

theorem exact_empty : Exact {} := rfl

/-- The allocator after a request. -/
def issue (a : Allocator) (name : Text) (minLength : Nat) : Allocator :=
  (a.allocate name minLength).2

variable {a b : Allocator} {name : Text} {minLength : Nat}

/-- A candidate is free if no other name is held for it. -/
theorem Exact.isFreeFor_iff (h : a.Exact) {id : Text} :
    a.isFreeFor name id = true
      ↔ ∀ held, a.legend.get? id = some held → held = name := by
  unfold isFreeFor
  rw [h]
  cases hid : a.legend.get? id with
  | none => simp [Legend.get?_eq_none_iff.1 hid]
  | some held =>
      have hmem : id ∈ a.legend.ids := by
        apply Classical.byContradiction
        intro hnot
        rw [Legend.get?_eq_none_iff.2 hnot] at hid
        cases hid
      simp [hmem]

/-- A request is answered by what is chosen for it. The legend then holds
the name under that identifier, and whatever it held before. -/
theorem Exact.allocate (h : a.Exact) (name : Text) (minLength : Nat) :
    a.allocate name minLength
        = (.ok (a.choose name minLength), a.issue name minLength)
      ∧ (a.issue name minLength).Exact
      ∧ a.legend.Within (a.issue name minLength).legend
      ∧ (a.issue name minLength).legend.get? (a.choose name minLength)
          = some name := by
  have hfree := h.isFreeFor_iff.1 (isFreeFor_choose a name minLength)
  obtain ⟨m, hm, hwithin, hget, hids⟩ := Legend.assign_of_free hfree
  have hall : a.allocate name minLength
      = (.ok (a.choose name minLength),
          { a.markUsed (a.choose name minLength) with legend := m }) := by
    simp only [Allocator.allocate, hm]
  have hissue : a.issue name minLength
      = { a.markUsed (a.choose name minLength) with legend := m } := by
    unfold issue
    rw [hall]
  refine ⟨hissue ▸ hall, ?_, ?_, ?_⟩
  · rw [hissue]
    unfold Exact at h ⊢
    unfold markUsed
    rw [hids, ← h]
    split <;> rfl
  · rw [hissue]
    exact hwithin
  · rw [hissue]
    exact hget

/-- What was chosen for a name is chosen for it at any later time, once
the legend holds it. -/
theorem Exact.choose_eq (ha : a.Exact) (hb : b.Exact)
    (hab : a.legend.Within b.legend)
    (hheld : b.legend.get? (a.choose name minLength) = some name) :
    b.choose name minLength = a.choose name minLength := by
  apply choose_eq_of_first
  · intro id hrefused
    have hnot : ¬ a.isFreeFor name id = true := by
      rw [hrefused]
      simp
    rw [ha.isFreeFor_iff] at hnot
    rw [← Bool.not_eq_true, hb.isFreeFor_iff]
    intro hfree
    exact hnot fun held hget => hfree held (hab.get? hget)
  · rw [hb.isFreeFor_iff]
    intro held hget
    rw [hheld] at hget
    exact (Option.some.inj hget).symm

-- ================================================================= runs

/-- What is asked of an allocator. -/
structure Request where
  /-- The name for which an identifier is wanted. -/
  name : Text
  /-- How many characters the identifier is to have at least. -/
  minLength : Nat
deriving DecidableEq, Repr

/-- A request with its answer, and the allocator behind it. -/
structure Reply where
  /-- The request. -/
  request : Request
  /-- The identifier, or the conflict that the request ended in. -/
  answer : Except Conflict Text
  /-- The allocator after the request. -/
  after : Allocator

/-- The replies to requests that are made one after the other. -/
def replies (a : Allocator) : List Request → List Reply
  | [] => []
  | r :: rs =>
    let (answer, after) := a.allocate r.name r.minLength
    { request := r, answer := answer, after := after } :: after.replies rs

/-- The allocator after requests that are made one after the other. -/
def issueAll (a : Allocator) (rs : List Request) : Allocator :=
  rs.foldl (fun a r => a.issue r.name r.minLength) a

@[simp] theorem replies_nil (a : Allocator) : a.replies [] = [] := rfl

theorem replies_cons (a : Allocator) (r : Request) (rs : List Request) :
    a.replies (r :: rs)
      = { request := r, answer := (a.allocate r.name r.minLength).1
          after := a.issue r.name r.minLength }
        :: (a.issue r.name r.minLength).replies rs := rfl

theorem issueAll_cons (a : Allocator) (r : Request) (rs : List Request) :
    a.issueAll (r :: rs) = (a.issue r.name r.minLength).issueAll rs := rfl

/-- Requests keep the invariant, and the legend only grows. -/
theorem Exact.issueAll (h : a.Exact) (rs : List Request) :
    (a.issueAll rs).Exact ∧ a.legend.Within (a.issueAll rs).legend := by
  induction rs generalizing a with
  | nil => exact ⟨h, .refl _⟩
  | cons r rs ih =>
      obtain ⟨-, hexact, hwithin, -⟩ := h.allocate r.name r.minLength
      obtain ⟨hlast, hgrown⟩ := ih hexact
      exact ⟨hlast, hwithin.trans hgrown⟩

/-- A request enters the name under the identifier that is chosen for it,
and nothing else. -/
theorem of_get?_issue {id held : Text}
    (h : (a.issue name minLength).legend.get? id = some held) :
    a.legend.get? id = some held ∨ id = a.choose name minLength ∧ held = name := by
  unfold issue Allocator.allocate at h
  simp only at h
  split at h
  next l hassign =>
    unfold Legend.assign at hassign
    split at hassign
    next hnone =>
      cases hassign
      exact Legend.of_get?_push (Legend.get?_eq_none_iff.1 hnone) h
    next =>
      split at hassign
      next =>
        cases hassign
        exact .inl h
      next => cases hassign
  next =>
    unfold markUsed at h
    split at h <;> exact .inl h

/-- A request that is made again changes nothing. -/
theorem Exact.issue_eq_self (h : a.Exact)
    (hheld : a.legend.get? (a.choose name minLength) = some name) :
    a.issue name minLength = a := by
  have hassign : a.legend.assign (a.choose name minLength) name = .ok a.legend := by
    unfold Legend.assign
    split
    next hnone =>
      rw [hheld] at hnone
      cases hnone
    next held hget =>
      rw [hheld] at hget
      rw [if_pos (Option.some.inj hget).symm]
  have hused : a.choose name minLength ∈ a.used := by
    rw [h]
    apply Classical.byContradiction
    intro hnot
    rw [Legend.get?_eq_none_iff.2 hnot] at hheld
    cases hheld
  unfold issue Allocator.allocate
  simp only [hassign]
  rw [markUsed, if_pos hused]

/-- Whatever requests enter is what one of them asked for, under the
identifier that the allocator behind them chooses. -/
theorem Exact.exists_request (h : a.Exact) {rs : List Request} {id held : Text}
    (hget : (a.issueAll rs).legend.get? id = some held) :
    a.legend.get? id = some held
      ∨ ∃ r ∈ rs, r.name = held ∧ id = (a.issueAll rs).choose r.name r.minLength := by
  induction rs generalizing a with
  | nil => exact .inl hget
  | cons r rs ih =>
      rw [issueAll_cons] at hget ⊢
      obtain ⟨-, hexact, hwithin, hheld⟩ := h.allocate r.name r.minLength
      rcases ih hexact hget with hfirst | ⟨s, hs, hname, hid⟩
      · rcases of_get?_issue hfirst with hbefore | ⟨rfl, rfl⟩
        · exact .inl hbefore
        · obtain ⟨hlast, hgrown⟩ := hexact.issueAll rs
          exact .inr ⟨r, List.mem_cons_self, rfl,
            (h.choose_eq hlast (hwithin.trans hgrown) hget).symm⟩
      · exact .inr ⟨s, List.mem_cons_of_mem r hs, hname, hid⟩

/-- There is one reply to each request. -/
theorem map_request_replies (a : Allocator) (rs : List Request) :
    (a.replies rs).map Reply.request = rs := by
  induction rs generalizing a with
  | nil => rfl
  | cons r rs ih =>
      rw [replies_cons, List.map_cons, ih]

/-- The run lemma: the allocator behind a reply is exact, it stands between
those at both ends of the run, and it holds the name under the identifier
that the allocator at the end would choose; that one is the answer. -/
theorem Exact.of_mem_replies (h : a.Exact) {rs : List Request} {s : Reply}
    (hs : s ∈ a.replies rs) :
    s.after.Exact ∧ a.legend.Within s.after.legend
      ∧ s.after.legend.Within (a.issueAll rs).legend
      ∧ s.answer
          = .ok ((a.issueAll rs).choose s.request.name s.request.minLength)
      ∧ s.after.legend.get?
          ((a.issueAll rs).choose s.request.name s.request.minLength)
          = some s.request.name := by
  induction rs generalizing a with
  | nil => simp at hs
  | cons r rs ih =>
      obtain ⟨hall, hexact, hwithin, hget⟩ := h.allocate r.name r.minLength
      obtain ⟨hlast, hgrown⟩ := hexact.issueAll rs
      rw [issueAll_cons]
      rcases List.mem_cons.1 (replies_cons a r rs ▸ hs) with rfl | hs
      · have hchoose := h.choose_eq hlast (hwithin.trans hgrown)
          (hgrown.get? hget)
        simp only [hchoose]
        refine ⟨hexact, hwithin, hgrown, ?_, hget⟩
        rw [hall]
      · obtain ⟨hx, hfrom, hrest⟩ := ih hexact hs
        exact ⟨hx, hwithin.trans hfrom, hrest⟩

/-- What was requested is held, under the identifier that the allocator
behind all requests chooses. -/
theorem Exact.get?_issueAll (h : a.Exact) {rs : List Request} {r : Request} (hr : r ∈ rs) :
    (a.issueAll rs).legend.get? ((a.issueAll rs).choose r.name r.minLength) = some r.name := by
  rw [← map_request_replies a rs] at hr
  obtain ⟨s, hs, rfl⟩ := List.mem_map.1 hr
  obtain ⟨-, -, hwithin, -, hget⟩ := h.of_mem_replies hs
  exact hwithin.get? hget

/-- What a legend holds at some time of a run it holds at any later
time. -/
theorem Exact.pairwise_within (h : a.Exact) (rs : List Request) :
    (a :: (a.replies rs).map Reply.after).Pairwise fun b c =>
      b.legend.Within c.legend := by
  induction rs generalizing a with
  | nil => simp
  | cons r rs ih =>
      obtain ⟨-, hexact, -, -⟩ := h.allocate r.name r.minLength
      refine List.pairwise_cons.2 ⟨?_, ih hexact⟩
      intro b hb
      obtain ⟨s, hs, rfl⟩ := List.mem_map.1 hb
      exact (h.of_mem_replies hs).2.1

/-- Issuing identifiers is safe and stable, from any legend and for any
requests: each is answered by an identifier that then stands for the name
asked for, the issued identifiers are those of the legend, what an
identifier stands for at one time it stands for at any later time, equal
identifiers were issued for equal names, and equal requests are answered
alike. -/
theorem issuing_is_stable (l : Legend) (rs : List Request) :
    ((ofLegend l).replies rs).map Reply.request = rs
      ∧ (∀ s ∈ (ofLegend l).replies rs,
          (∃ id, s.answer = .ok id ∧ s.after.legend.get? id = some s.request.name)
            ∧ s.after.used = s.after.legend.ids)
      ∧ (ofLegend l :: ((ofLegend l).replies rs).map Reply.after).Pairwise
          (fun b c => ∀ id name,
            b.legend.get? id = some name → c.legend.get? id = some name)
      ∧ (∀ s ∈ (ofLegend l).replies rs, ∀ t ∈ (ofLegend l).replies rs,
          s.answer = t.answer → s.request.name = t.request.name)
      ∧ (∀ s ∈ (ofLegend l).replies rs, ∀ t ∈ (ofLegend l).replies rs,
          s.request = t.request → s.answer = t.answer) := by
  have hstart := exact_ofLegend l
  refine ⟨map_request_replies _ rs, ?_, ?_, ?_, ?_⟩
  · intro s hs
    obtain ⟨hexact, -, -, hanswer, hget⟩ := hstart.of_mem_replies hs
    exact ⟨⟨_, hanswer, hget⟩, hexact⟩
  · refine (hstart.pairwise_within rs).imp ?_
    intro b c hbc id name hget
    exact hbc.get? hget
  · -- both names are held for one identifier at the end of the run
    intro s hs t ht heq
    obtain ⟨-, -, hs', hanswer, hget⟩ := hstart.of_mem_replies hs
    obtain ⟨-, -, ht', hanswer', hget'⟩ := hstart.of_mem_replies ht
    rw [hanswer, hanswer'] at heq
    have hname := hs'.get? hget
    rw [Except.ok.inj heq, ht'.get? hget'] at hname
    exact (Option.some.inj hname).symm
  · -- both answers are what is chosen at the end of the run
    intro s hs t ht heq
    obtain ⟨-, -, -, hanswer, -⟩ := hstart.of_mem_replies hs
    obtain ⟨-, -, -, hanswer', -⟩ := hstart.of_mem_replies ht
    rw [hanswer, hanswer', heq]

end Allocator

end FreeLabel.Naming
