/-
A strict pass and a lenient one over the same source.

# One run beside the other

The two passes differ in a flag that only a report reads. So they can be
followed side by side: as long as nothing is reported they own the same
but for the flag, and at the first report the strict one stops with just
what the lenient one notes. `Pass.Reports` says this of a step, together
with the lines that its reports may be about; `Reports.bind` puts two
steps together by cases on whether the first one reports. A step that
reads what the pass owns must not let the flag matter (`Reports.get_bind`).

# Where reports come from

A line of either kind of source is reported at most once, with its own
number and text. Hence the places of all reports are a sublist of the
source's numbered lines (`reports_translate`), in whose order the numbers
rise.
-/
import FreeLabel.Proofs.Pass

namespace FreeLabel

-- ======================================================== the two passes

/-- What a strict pass owns where a lenient one owns `c`. -/
def Context.strictly (c : Context) : Context := { c with strict := true }

/-- The line that a report is about. -/
def Diagnostic.place (d : Diagnostic) : Int × Text := (d.lineNo, d.line)

/-- A numbered line, as reports name it. -/
def placeOf (line : Nat × Text) : Int × Text := (line.1, line.2)

namespace Pass

/-- A strict pass goes on where a lenient one reports nothing, and else
stops with the first report. -/
def StopsAt (outcome : EStateM.Result Halt Context α) (a : α) (d : Context) :
    List Diagnostic → Prop
  | [] => outcome = .ok a d.strictly
  | first :: _ => ∃ e, outcome = .error (.malformed first) e

/-- A step goes well in a lenient pass. Its reports are about some of the
given lines, in their order, and a strict pass stops at the first one. -/
def Reports (p : Pass α) (lines : List (Nat × Text)) : Prop :=
  ∀ c : Context, c.Sound → c.strict = false →
    ∃ (a : α) (d : Context) (reports : List Diagnostic),
      p c = .ok a d ∧ d.Sound ∧ d.strict = false
        ∧ d.diagnostics = c.diagnostics ++ reports
        ∧ (reports.map Diagnostic.place).Sublist (lines.map placeOf)
        ∧ StopsAt (p c.strictly) a d reports

variable {lines lines' : List (Nat × Text)}

theorem Reports.mono {p : Pass α} (hp : p.Reports lines) (hsub : lines.Sublist lines') :
    p.Reports lines' := by
  intro c hc hlenient
  obtain ⟨a, d, reports, hpc, hd, hd', hnoted, hplaces, hstrict⟩ := hp c hc hlenient
  exact ⟨a, d, reports, hpc, hd, hd', hnoted, hplaces.trans (hsub.map placeOf), hstrict⟩

theorem Reports.pure (a : α) : (Pure.pure a : Pass α).Reports [] :=
  fun c hc hlenient => ⟨a, c, [], rfl, hc, hlenient, (List.append_nil _).symm, .slnil, rfl⟩

theorem Reports.bind {p : Pass α} {f : α → Pass β} (hp : p.Reports lines)
    (hf : ∀ a, (f a).Reports lines') : (p >>= f).Reports (lines ++ lines') := by
  intro c hc hlenient
  obtain ⟨a, d, first, hpc, hd, hd', hnoted, hplaces, hstrict⟩ := hp c hc hlenient
  obtain ⟨b, e, second, hfd, he, he', hnoted', hplaces', hstrict'⟩ := hf a d hd hd'
  refine ⟨b, e, first ++ second, ?_, he, he', ?_, ?_, ?_⟩
  · simp only [Bind.bind, EStateM.bind, hpc, hfd]
  · rw [hnoted', hnoted, List.append_assoc]
  · rw [List.map_append, List.map_append]
    exact hplaces.append hplaces'
  · cases first with
    | nil =>
        -- the strict pass goes on, and so the second step decides
        have hgoes : p c.strictly = .ok a d.strictly := hstrict
        have hsame : (p >>= f) c.strictly = f a d.strictly := by
          simp only [Bind.bind, EStateM.bind, hgoes]
        rw [hsame]
        exact hstrict'
    | cons report first =>
        obtain ⟨stopped, hstops⟩ := hstrict
        refine ⟨stopped, ?_⟩
        simp only [Bind.bind, EStateM.bind, hstops]

theorem graded_reports : Graded Reports where
  pure := .pure
  bind := .bind

theorem Reports.map {p : Pass α} (hp : p.Reports lines) (f : α → β) :
    (f <$> p).Reports lines :=
  graded_reports.map lines hp f

theorem Reports.mapM {f : α → Pass β} {place : α → List (Nat × Text)}
    (hf : ∀ a, (f a).Reports (place a)) (as : List α) :
    (as.mapM f).Reports (as.flatMap place) :=
  graded_reports.mapM place hf as

/-- A step that reads what the pass owns, but not the flag. -/
theorem Reports.get_bind {f : Context → Pass α} (hf : ∀ c, (f c).Reports lines)
    (hflag : ∀ c, f c.strictly = f c) :
    ((MonadState.get : Pass Context) >>= f).Reports lines := by
  intro c hc hlenient
  have h := hf c c hc hlenient
  have hstrict : (get >>= f) c.strictly = f c c.strictly := by
    rw [Pass.get_bind, hflag]
  rw [Pass.get_bind, hstrict]
  exact h

theorem Reports.allocate (name : Text) (minLength : Nat) :
    (Pass.allocate name minLength).Reports [] := by
  intro c hc hlenient
  refine ⟨c.allocator.choose name minLength,
    { c with allocator := c.allocator.issue name minLength }, [], allocate_eq hc .., hc.issue ..,
    hlenient, (List.append_nil _).symm, .slnil, ?_⟩
  have hsound : c.strictly.Sound := ⟨hc.exact, hc.issued⟩
  exact allocate_eq hsound name minLength

/-- Noting a label's identifier reports nothing. -/
theorem Reports.note (label id : Text) :
    (modify fun c => { c with nodes := c.nodes ++ [(label, id)] } : Pass Unit).Reports [] :=
  fun _ hc hlenient =>
    ⟨(), _, [], rfl, ⟨hc.exact, hc.issued⟩, hlenient, (List.append_nil _).symm, .slnil, rfl⟩

theorem Reports.report (lineNo : Nat) (line : Text) (complaint : Complaint) :
    (Pass.report lineNo line complaint).Reports [(lineNo, line)] := by
  intro c hc hlenient
  refine ⟨(), { c with diagnostics := c.diagnostics ++
      [{ lineNo := lineNo, line := line, complaint := complaint }] },
    [{ lineNo := lineNo, line := line, complaint := complaint }], ?_, ⟨hc.exact, hc.issued⟩,
    hlenient, rfl, List.Sublist.refl _, c.strictly, ?_⟩
  · rw [report_eq, hlenient]
    rfl
  · rw [report_eq]
    rfl

end Pass

-- ================================================== entities and relations

namespace Er

open Pass (Reports)

theorem reports_translateAttribute (lineNo : Nat) (line : Text) :
    (translateAttribute lineNo line).Reports [(lineNo, line)] := by
  unfold translateAttribute
  split
  next a _ =>
    have htranslate : (a.translate line).Reports [] := by
      unfold Attribute.translate
      exact Reports.get_bind (fun _ => (Reports.allocate _ _).bind fun _ => .pure _)
        fun _ => rfl
    exact htranslate.mono (List.nil_sublist _)
  next => exact (Reports.report lineNo line _).bind fun _ => .pure line

theorem reports_translateRelationship (line : Text) :
    (translateRelationship line).Reports [] := by
  unfold translateRelationship
  split
  next => exact .pure line
  next =>
    exact (Reports.allocate _ _).bind fun _ => (Reports.allocate _ _).bind fun _ => .pure _

/-- The step lemma: a line is reported for itself, if at all. -/
theorem reports_translateLine (lineNo : Nat) (line : Text) (kind : Line) :
    (translateLine lineNo line kind).Reports [(lineNo, line)] := by
  have hsilent : ∀ {p : Pass (Option Text)}, p.Reports [] → p.Reports [(lineNo, line)] :=
    fun hp => hp.mono (List.nil_sublist _)
  unfold translateLine
  split
  next => exact hsilent (.pure _)
  next => exact hsilent (.pure _)
  next => exact (reports_translateAttribute lineNo line).map some
  next name => exact hsilent ((Reports.allocate name 0).bind fun _ => .pure _)
  next => exact hsilent ((reports_translateRelationship line).map some)
  next => exact hsilent (.pure _)
  next => exact hsilent (.pure _)
  next => exact hsilent (.pure _)

/-- The run lemma: lines are reported in their order. -/
theorem reports_translateLines (r : Reading) (lines : List (Nat × Text)) :
    (translateLines r lines).Reports lines := by
  induction lines generalizing r with
  | nil => exact .pure _
  | cons line lines ih =>
      rw [translateLines]
      refine (reports_translateLine line.1 line.2 _).bind fun out => ?_
      have hrest := (ih (r.next (Line.classify r.inBlock line.2))).map
        fun p => (out.toList ++ p.1, p.2)
      rwa [map_eq_pure_bind] at hrest

end Er

-- ============================================================= flowcharts

namespace Flow

open Pass (Reports)
open Text (trim indent)

theorem reports_nodeId (label : Text) : (nodeId label).Reports [] := by
  unfold nodeId
  refine Reports.get_bind (fun c => ?_) fun _ => rfl
  cases c.nodes.lookup label with
  | some id => exact .pure id
  | none =>
      exact (Reports.allocate label 0).bind fun id =>
        (Reports.note label id).bind fun _ => .pure id

theorem reports_token (t : Token) : t.translate.Reports [] := by
  cases t with
  | arrow spelling => exact .pure spelling
  | reference spelling => exact .pure spelling
  | node shape label => exact (reports_nodeId label).bind fun _ => .pure _

theorem reports_translateTokens (ts : List Token) : (translateTokens ts).Reports [] := by
  have hspelled := Reports.mapM (fun t : Token => (reports_token t).map fun s => (t.isArrow, s)) ts
  rw [List.flatMap_eq_nil_iff.2 fun _ _ => rfl] at hspelled
  exact hspelled.map fun spelled => squeeze (layOut false spelled)

/-- The step lemma: a line is reported for itself, if at all. -/
theorem reports_translateLine (lineNo : Nat) (line : Text) :
    (translateLine lineNo line).Reports [(lineNo, line)] := by
  have hrest := (reports_translateTokens (tokens (trim line))).map fun row => indent line ++ row
  rw [map_eq_pure_bind] at hrest
  unfold translateLine
  split
  next => exact hrest.mono (List.nil_sublist _)
  next dropped _ => exact (Reports.report lineNo line _).bind fun _ => hrest

/-- The run lemma: so are the lines of a source, in their order. -/
theorem reports_translate (source : Text) :
    (translate source).Reports (Text.numberedLines source) := by
  have hline : ∀ line : Nat × Text,
      (if isKept (trim line.2) then pure line.2
        else translateLine line.1 line.2 : Pass Text).Reports [line] := by
    intro line
    split
    next => exact (Reports.pure line.2).mono (List.nil_sublist _)
    next => exact reports_translateLine line.1 line.2
  have hlines := Reports.mapM hline (Text.numberedLines source)
  rw [List.flatMap_singleton'] at hlines
  exact hlines.map Text.joinLines

end Flow

-- ================================================================ sources

open Pass (Reports StopsAt)

/-- A source is reported line by line, whatever its mode. -/
theorem reports_translate (source : Text) (mode : Mode) :
    (translate source mode).Reports (Text.numberedLines source) := by
  cases mode with
  | er =>
      exact (Er.reports_translateLines {} (Text.numberedLines source)).map
        fun p => (Text.joinLines p.1, p.2.direction)
  | flowchart => exact (Flow.reports_translate source).map fun code => (code, none)

/-- The numbers of a source's lines rise. -/
theorem pairwise_numberedLines (source : Text) :
    ((Text.numberedLines source).map placeOf).Pairwise fun p q => p.1 < q.1 := by
  have hnumbers : ((Text.lines source).zipIdx 1).map Prod.snd
      = List.range' 1 (Text.lines source).length := List.zipIdx_map_snd 1 _
  have hrise := List.pairwise_lt_range' (s := 1) (n := (Text.lines source).length)
  rw [← hnumbers, List.pairwise_map] at hrise
  unfold Text.numberedLines
  rw [List.pairwise_map, List.pairwise_map]
  exact hrise.imp fun hlt => Int.ofNat_lt.2 hlt

/-- A numbered line is the one with its number, from one. -/
theorem getElem?_of_mem_numberedLines {source : Text} {line : Nat × Text}
    (h : line ∈ Text.numberedLines source) :
    ∃ n, line.1 = n + 1 ∧ (Text.lines source)[n]? = some line.2 := by
  obtain ⟨⟨text, lineNo⟩, hmem, rfl⟩ := List.mem_map.1 h
  obtain ⟨hle, hget⟩ := List.mem_zipIdx_iff_le_and_getElem?_sub.1 hmem
  exact ⟨lineNo - 1, by simp only; omega, hget⟩

/-- What a lenient pass compiles, and how the strict one ends. -/
theorem exists_lenient (source : Text) (padding : Int) :
    ∃ lenient : Compiled, compile source false padding = .ok lenient
      ∧ (lenient.diagnostics.map Diagnostic.place).Sublist
          ((Text.numberedLines source).map placeOf)
      ∧ compile source true padding
          = match lenient.diagnostics with
            | [] => .ok lenient
            | first :: _ => .error (.malformed first) := by
  obtain ⟨⟨code, direction⟩, c, reports, hrun, -, -, hnoted, hplaces, hstrict⟩ :=
    reports_translate source (Mode.ofSource source) _ (Context.sound_start false padding) rfl
  rw [List.nil_append] at hnoted
  refine ⟨{ mode := Mode.ofSource source, code := code, legend := c.legend
            direction := direction, diagnostics := reports }, ?_, hplaces, ?_⟩
  · unfold compile
    simp only [EStateM.run, hrun, hnoted]
  · cases reports with
    | nil =>
        have hgoes : translate source (Mode.ofSource source)
            { strict := true, padding := padding } = .ok (code, direction) c.strictly := hstrict
        unfold compile
        simp only [EStateM.run, hgoes, Context.strictly, hnoted]
        rfl
    | cons first rest =>
        obtain ⟨e, he⟩ := hstrict
        have hhalts : translate source (Mode.ofSource source)
            { strict := true, padding := padding } = .error (.malformed first) e := he
        unfold compile
        simp only [EStateM.run, hhalts]

/-- A strict pass that goes well compiles what the lenient one does. -/
theorem eq_of_compile {source : Text} {strict : Bool} {padding : Int}
    {compiled lenient : Compiled} (h : compile source strict padding = .ok compiled)
    (hlenient : compile source false padding = .ok lenient) : compiled = lenient := by
  cases strict with
  | false => exact Except.ok.inj (h.symm.trans hlenient)
  | true =>
      obtain ⟨again, hagain, -, hstrict⟩ := exists_lenient source padding
      obtain rfl := Except.ok.inj (hagain.symm.trans hlenient)
      rw [hstrict] at h
      split at h
      next => exact (Except.ok.inj h).symm
      next => cases h

/-- A lenient pass always compiles its source. The strict pass succeeds
exactly if nothing is reported, and then with the same result; else it
stops with the first report of the lenient one. Reports name the lines of
the source by number and text, one line at most once and in order. -/
theorem strict_stops_at_first_report (source : Text) (padding : Int) :
    ∃ lenient : Compiled, compile source false padding = .ok lenient
      ∧ ((∃ strict, compile source true padding = .ok strict) ↔ lenient.diagnostics = [])
      ∧ (∀ strict, compile source true padding = .ok strict → strict = lenient)
      ∧ (∀ first rest, lenient.diagnostics = first :: rest →
          compile source true padding = .error (.malformed first))
      ∧ lenient.diagnostics.Pairwise (fun d e => d.lineNo < e.lineNo)
      ∧ ∀ d ∈ lenient.diagnostics,
          ∃ n : Nat, d.lineNo = n + 1 ∧ (Text.lines source)[n]? = some d.line := by
  obtain ⟨lenient, hlenient, hplaces, hstrict⟩ := exists_lenient source padding
  refine ⟨lenient, hlenient, ?_, fun _ h => eq_of_compile h hlenient, ?_, ?_, ?_⟩
  · rw [hstrict]
    cases lenient.diagnostics with
    | nil => exact ⟨fun _ => rfl, fun _ => ⟨_, rfl⟩⟩
    | cons first rest => exact ⟨nofun, nofun⟩
  · intro first rest hreports
    rw [hstrict, hreports]
  · have hrise := (pairwise_numberedLines source).sublist hplaces
    rwa [List.pairwise_map] at hrise
  · intro d hd
    obtain ⟨line, hline, hplace⟩ :=
      List.mem_map.1 (hplaces.subset (List.mem_map_of_mem (f := Diagnostic.place) hd))
    obtain ⟨hlineNo, htext⟩ := Prod.mk.inj hplace
    obtain ⟨n, hn, hget⟩ := getElem?_of_mem_numberedLines hline
    exact ⟨n, by omega, htext ▸ hget⟩

end FreeLabel
