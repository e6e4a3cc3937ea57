/-
What a rendering leaves of the results of another.

# One rendering

A rendering whose preview is a drawing writes its results, if the files do
not stand in its way, and ends well (`Rendering.exists_site`); then the
files hold what it has written (`Rendering.on_left`). Of what other files
hold it changes nothing (`Rendering.read_left`).

# Two renderings

So the results of one stay if those of the other go elsewhere, and this is
known from the names of the sources alone (`Rendering.results_stay_iff`).
Sources whose names differ in a second suffix only, as those of versions
often do, send their results to the same files (`rendering_overwrites`).
-/
import FreeLabel.Proofs.CommandLine
import FreeLabel.Proofs.Restore.Readable
import FreeLabel.Proofs.Results.Sites

namespace FreeLabel.CommandLine

-- ================================================================== acts

/-- What is not broken off by the files is performed to its end. -/
theorem conclude_eq {session : Session} {acts : List Act} {ending : Ending}
    (h : ∀ why, (conclude session acts ending).ending ≠ .brokenOff (.files why)) :
    ∃ session', session.performAll acts = (session', none)
      ∧ conclude session acts ending = { session := session', ending := ending } := by
  unfold conclude at h ⊢
  split
  next session' hperformed => exact ⟨session', hperformed, rfl⟩
  next session' why hperformed =>
    simp only [hperformed] at h
    exact absurd rfl (h why)

/-- A run that renders a file writes the preview, if that is a drawing. -/
theorem run_drawn {s : Settings} (host : Host) (moments : List Moment) {args : List Text}
    {files : FileSystem} {file : Text} {content : Text.Bytes} {stamp : Nat}
    {compiled : Compiled} {drawing : Text}
    (hread : read? args = some (.render file none))
    (hfile : files.find? file = some (.file content stamp))
    (hdrawn : s.preview host (Text.ofFile content) = .ok (.drawn compiled drawing)) :
    run s host moments args files
      = conclude { files := files } (publish s (Path.ofText file).stem id compiled drawing)
          .done := by
  have hnamed : files.find? (Command.render file none).file = some (.file content stamp) :=
    hfile
  unfold run
  rw [hread]
  simp only [hnamed]
  simp only [runOn, Command.task, hdrawn]
  rfl

-- ========================================================= one rendering

/-- A run that renders a file and leaves it to the program what the results
are called. The preview of the file is a drawing, and the files do not stand
in the way of the run. -/
structure Rendering (s : Settings) (files : FileSystem) where
  /-- What the preview is made on. -/
  host : Host
  /-- What happens in the meantime. -/
  moments : List Moment
  /-- The command line. -/
  args : List Text
  /-- The file. -/
  file : Text
  /-- What it holds. -/
  content : Text.Bytes
  /-- When it was written. -/
  stamp : Nat
  /-- What it compiles to. -/
  compiled : Compiled
  /-- The drawing, with the names in it. -/
  drawing : Text
  asked : read? args = some (.render file none)
  found : files.find? file = some (.file content stamp)
  drawn : s.preview host (Text.ofFile content) = .ok (.drawn compiled drawing)
  unhindered : ∀ why, (run s host moments args files).ending ≠ .brokenOff (.files why)

namespace Rendering

variable {s : Settings} {files : FileSystem} (r : Rendering s files)

/-- What the run leaves. -/
def report : Report := run s r.host r.moments r.args files

/-- The files afterwards. -/
def left : FileSystem := r.report.session.files

/-- The name of the file without its suffix. -/
def stem : Text := (Path.ofText r.file).stem

/-- Where the results go. -/
def paths : List Path :=
  ((outputPaths? s.outputDir r.stem).map fun p => [p.1, p.2]).getD []

/-- Whether files hold the results. -/
def On (fs : FileSystem) : Prop :=
  r.paths.map fs.read = [.ok (Text.encode r.compiled.code), .ok (Text.encode r.drawing)]

/-- What the run does if the results have a site. -/
def acts (σ : Site) : List Act :=
  [.makeDirectory (Path.ofText s.outputDir), .write (σ.path ".mmd") r.compiled.code,
    .write (σ.path ".svg") r.drawing, .print (σ.path ".svg").toText]

theorem slash_not_mem_stem : '/' ∉ r.stem := Path.slash_not_mem_stem _

theorem paths_eq {σ : Site} (h : site? s.outputDir r.stem = some σ) : r.paths = σ.paths := by
  rw [paths, outputPaths?_eq r.slash_not_mem_stem, h]
  rfl

theorem publish_eq :
    publish s r.stem id r.compiled r.drawing
      = match site? s.outputDir r.stem with
        | some σ => r.acts σ
        | none => [.makeDirectory (Path.ofText s.outputDir), .giveUp .noName] := by
  unfold publish
  rw [outputPaths?_eq r.slash_not_mem_stem]
  cases site? s.outputDir r.stem <;> rfl

/-- The results have a site, and the run does all that it is to do. -/
theorem exists_site :
    ∃ σ, site? s.outputDir r.stem = some σ ∧ r.report.ending = .done
      ∧ ({ files := files } : Session).performAll (r.acts σ) = (r.report.session, none) := by
  have hrun : r.report = conclude { files := files }
      (publish s r.stem id r.compiled r.drawing) .done := run_drawn _ _ r.asked r.found r.drawn
  have hunhindered : ∀ why, r.report.ending ≠ .brokenOff (.files why) := r.unhindered
  rw [hrun] at hunhindered
  obtain ⟨session, hperformed, hconclude⟩ := conclude_eq hunhindered
  rw [hrun, hconclude]
  rw [r.publish_eq] at hperformed
  cases hsite : site? s.outputDir r.stem with
  | none =>
      rw [hsite] at hperformed
      obtain ⟨next, -, hgiveUp⟩ := Session.performAll_cons hperformed
      cases hgiveUp
  | some σ =>
      rw [hsite] at hperformed
      exact ⟨σ, rfl, rfl, hperformed⟩

theorem left_eq :
    r.left = (Session.performAll { files := files }
      (publish s r.stem id r.compiled r.drawing)).1.files := by
  obtain ⟨σ, hsite, -, hperformed⟩ := r.exists_site
  rw [r.publish_eq, hsite, hperformed]
  rfl

/-- Afterwards the files hold the results. -/
theorem on_left : r.On r.left := by
  obtain ⟨σ, hsite, -, hperformed⟩ := r.exists_site
  have hsound := sound_of_site? r.slash_not_mem_stem hsite
  have hpicture : (σ.path ".svg").Apart (σ.path ".mmd") :=
    Site.apart_inside hsound hsound (by decide) (by decide) rfl fun heq =>
      absurd (Site.path_injective (by decide) (by decide) heq).2 (by decide)
  obtain ⟨made, -, hwrites⟩ := Session.performAll_cons hperformed
  have hdiagram := Session.read_of_written hwrites (by
    intro p t hmem
    simp at hmem
    exact hmem.1 ▸ hpicture)
  obtain ⟨written, -, hrest⟩ := Session.performAll_cons hwrites
  have hdrawing := Session.read_of_written hrest (by simp)
  rw [On, r.paths_eq hsite]
  simp only [Site.paths, suffixes, List.map_cons, List.map_nil, left]
  rw [hdiagram, hdrawing]

/-- A file is read as before if the results have other places. -/
theorem read_left {σ : Site} (hsite : site? s.outputDir r.stem = some σ) {q : Path}
    {content : Text.Bytes} (hq : files.read q = .ok content)
    (hapart : ∀ suffix ∈ suffixes, (σ.path suffix).Apart q) : r.left.read q = .ok content := by
  obtain ⟨σ', hsite', -, hperformed⟩ := r.exists_site
  obtain rfl : σ = σ' := Option.some.inj (hsite.symm.trans hsite')
  have hwrites : ∀ p t, .write p t ∈ r.acts σ → p.Apart q := by
    intro p t hmem
    simp only [acts, List.mem_cons, reduceCtorEq, Act.write.injEq, List.not_mem_nil, or_false,
      false_or] at hmem
    rcases hmem with ⟨rfl, -⟩ | ⟨rfl, -⟩
    · exact hapart ".mmd" (by decide)
    · exact hapart ".svg" (by decide)
  have hread := Session.read_of_performAll { files := files } hq hwrites
  rw [hperformed] at hread
  exact hread

-- ======================================================== two renderings

variable {s₁ s₂ : Settings} (r₁ : Rendering s₁ files) (r₂ : Rendering s₂ r₁.left)

/-- Results stay if those of another rendering are called differently. -/
theorem on_left_of_ne (hdir : s₂.outputDir = s₁.outputDir)
    (hne : resultStem r₁.stem ≠ resultStem r₂.stem)
    (hup : EndsUp s₁.outputDir → resultStem r₁.stem ≠ none ∧ resultStem r₂.stem ≠ none) :
    r₁.On r₂.left := by
  obtain ⟨σ₁, hsite₁, -, -⟩ := r₁.exists_site
  obtain ⟨σ₂, hsite₂, -, -⟩ := r₂.exists_site
  have hapart : ∀ suffix ∈ suffixes, ∀ suffix' ∈ suffixes,
      (σ₂.path suffix').Apart (σ₁.path suffix) := fun suffix hsuffix suffix' hsuffix' =>
    (apart_of_resultStem_ne r₁.slash_not_mem_stem r₂.slash_not_mem_stem hsite₁
      (hdir ▸ hsite₂) hsuffix hsuffix' hne hup).symm
  have hon := r₁.on_left
  unfold On at hon ⊢
  rw [r₁.paths_eq hsite₁] at hon ⊢
  simp only [Site.paths, suffixes, List.map_cons, List.map_nil, List.cons.injEq,
    and_true] at hon ⊢
  obtain ⟨hdiagram, hpicture⟩ := hon
  exact ⟨r₂.read_left hsite₂ hdiagram (hapart ".mmd" (by decide)),
    r₂.read_left hsite₂ hpicture (hapart ".svg" (by decide))⟩

theorem disjoint_paths_iff (hdir : s₂.outputDir = s₁.outputDir) :
    r₁.paths.Disjoint r₂.paths ↔ resultStem r₁.stem ≠ resultStem r₂.stem := by
  obtain ⟨σ₁, hsite₁, -, -⟩ := r₁.exists_site
  obtain ⟨σ₂, hsite₂, -, -⟩ := r₂.exists_site
  rw [r₁.paths_eq hsite₁, r₂.paths_eq hsite₂, Site.disjoint_paths_iff, ne_eq,
    site?_eq_iff hsite₁ (hdir ▸ hsite₂)]

theorem paths_eq_of_resultStem (hdir : s₂.outputDir = s₁.outputDir)
    (h : resultStem r₁.stem = resultStem r₂.stem) : r₁.paths = r₂.paths := by
  obtain ⟨σ₁, hsite₁, -, -⟩ := r₁.exists_site
  obtain ⟨σ₂, hsite₂, -, -⟩ := r₂.exists_site
  rw [r₁.paths_eq hsite₁, r₂.paths_eq hsite₂, (site?_eq_iff hsite₁ (hdir ▸ hsite₂)).2 h]

/-- Results that are called like those of another rendering stay only if
they are the same. -/
theorem on_left_iff_of_eq (hdir : s₂.outputDir = s₁.outputDir)
    (h : resultStem r₁.stem = resultStem r₂.stem) :
    r₁.On r₂.left ↔ r₁.compiled.code = r₂.compiled.code ∧ r₁.drawing = r₂.drawing := by
  have hsecond := r₂.on_left
  have hencode : ∀ t t' : Text, Text.encode t = Text.encode t' ↔ t = t' := by
    refine fun t t' => ⟨fun heq => ?_, congrArg _⟩
    have hdecode := congrArg (Text.decode []) heq
    rwa [Text.decode_encode, Text.decode_encode] at hdecode
  unfold On at hsecond ⊢
  rw [r₁.paths_eq_of_resultStem r₂ hdir h, hsecond]
  simp only [List.cons.injEq, Except.ok.injEq, and_true, hencode]
  exact and_congr eq_comm eq_comm

/-- Two files are rendered, one after the other, with one output directory.
Both runs end well and leave their results. The paths of the results are
pairwise different exactly if they are called differently, that is if the
stems of the files differ even without a suffix of their own. And the
results of the first run are still there after the second exactly if they
are called differently or are the same as those of the second; results that
go beside an output directory that is written as the one above another are
left out. -/
theorem results_stay_iff (hdir : s₂.outputDir = s₁.outputDir) :
    (r₁.report.ending = .done ∧ r₁.On r₁.left) ∧ (r₂.report.ending = .done ∧ r₂.On r₂.left)
      ∧ (r₁.paths.Disjoint r₂.paths ↔ resultStem r₁.stem ≠ resultStem r₂.stem)
      ∧ ((EndsUp s₁.outputDir → resultStem r₁.stem ≠ none ∧ resultStem r₂.stem ≠ none) →
          (r₁.On r₂.left ↔ resultStem r₁.stem ≠ resultStem r₂.stem
            ∨ r₁.compiled.code = r₂.compiled.code ∧ r₁.drawing = r₂.drawing)) := by
  obtain ⟨-, -, hdone₁, -⟩ := r₁.exists_site
  obtain ⟨-, -, hdone₂, -⟩ := r₂.exists_site
  refine ⟨⟨hdone₁, r₁.on_left⟩, ⟨hdone₂, r₂.on_left⟩, r₁.disjoint_paths_iff r₂ hdir, ?_⟩
  intro hup
  by_cases hsame : resultStem r₁.stem = resultStem r₂.stem
  · rw [r₁.on_left_iff_of_eq r₂ hdir hsame]
    exact (or_iff_right (not_not_intro hsame)).symm
  · exact iff_of_true (r₁.on_left_of_ne r₂ hdir hsame hup) (.inl hsame)

end Rendering

-- =========================================================== three charts

/-- A flowchart with one node. -/
def chart (node : Char) : Text := "flowchart TD\n".toList ++ [node]

theorem exists_drawn_chart {node : Char} (hnode : node = 'A' ∨ node = 'B') :
    ∃ compiled drawing, compiled.code = chart node
      ∧ Settings.preview {} .bare (Text.ofFile (Text.encode (chart node)))
        = .ok (.drawn compiled drawing) := by
  have hreturn : '\r' ∉ chart node := by rcases hnode with rfl | rfl <;> decide
  rw [Text.ofFile_encode, Text.normalizeLineEnds_eq_self hreturn]
  obtain ⟨compiled, _, _, hcompiled, -, -, -, -, hshown⟩ :=
    exists_shown (chart node) (chart node) (chart node) .flowchart []
      [{ role := "nodeLabel".toList, text := [node] }] .usual true
      (by rcases hnode with rfl | rfl <;> decide)
      (by rcases hnode with rfl | rfl <;> decide +kernel)
      (by rcases hnode with rfl | rfl <;> decide +kernel)
      (by rcases hnode with rfl | rfl <;> decide +kernel)
      (by rcases hnode with rfl | rfl <;> decide +kernel)
  have hcode : (compile (chart node) false 2).toOption.map Compiled.code
      = some (chart node) := by rcases hnode with rfl | rfl <;> decide +kernel
  rw [hcompiled] at hcode
  exact ⟨compiled, _, Option.some.inj hcode, hshown⟩

/-- Two versions of a chart, another one, and an output directory. -/
def threeCharts : FileSystem where
  entries :=
    [(["plan.v1.txt".toList], .file (Text.encode (chart 'A')) 0),
      (["plan.v2.txt".toList], .file (Text.encode (chart 'B')) 0),
      (["shop.txt".toList], .file (Text.encode (chart 'B')) 0),
      (["outputs".toList], .directory)]

/-- The same with the results of the first. -/
def withFirst (code drawing : Text) : FileSystem where
  entries :=
    threeCharts.entries ++
      [(["outputs".toList, "plan.mmd".toList], .file (Text.encode code) 1),
        (["outputs".toList, "plan.svg".toList], .file (Text.encode drawing) 2)]
  writes := 2

/-- A chart in a file is rendered if the results can be written. -/
theorem exists_rendering {files : FileSystem} {file : Text} {node : Char} {stamp : Nat}
    (hnode : node = 'A' ∨ node = 'B')
    (hread : read? ["render".toList, file] = some (.render file none))
    (hfile : files.find? file = some (.file (Text.encode (chart node)) stamp))
    (hwritten : ∀ compiled drawing, (Session.performAll { files := files }
      (publish {} (Path.ofText file).stem id compiled drawing)).2 = none) :
    ∃ r : Rendering {} files, r.file = file ∧ r.compiled.code = chart node := by
  obtain ⟨compiled, drawing, hcode, hdrawn⟩ := exists_drawn_chart hnode
  have hrun := run_drawn .bare [] hread hfile hdrawn
  refine ⟨{ host := .bare, moments := [], args := _, file := file, content := _
            stamp := stamp, compiled := compiled, drawing := drawing, asked := hread
            found := hfile, drawn := hdrawn, unhindered := ?_ }, rfl, hcode⟩
  intro why
  have hnone := hwritten compiled drawing
  rw [hrun, conclude]
  split
  next => simp
  next hperformed =>
    rw [hperformed] at hnone
    cases hnone

/-- Where the output directory is there, the results are just written. -/
theorem performAll_publish {files : FileSystem} {name : Text} (diagram picture : Path)
    (hdir : files.ensureDirectory (Path.ofText "outputs".toList) = .ok files)
    (hpaths : outputPaths? "outputs".toList name = some (diagram, picture))
    (compiled : Compiled) (drawing : Text) :
    Session.performAll { files := files } (publish {} name id compiled drawing)
      = Session.performAll { files := files }
          [.write diagram compiled.code, .write picture drawing, .print picture.toText] := by
  unfold publish
  rw [hpaths]
  simp only [Session.performAll, Session.perform, hdir]
  rfl

theorem performAll_first (compiled : Compiled) (drawing : Text) :
    Session.performAll { files := threeCharts }
        (publish {} (Path.ofText "plan.v1.txt".toList).stem id compiled drawing)
      = ({ files := withFirst compiled.code drawing, printed := "outputs/plan.svg\n".toList },
        none) := by
  have hdir : threeCharts.ensureDirectory (Path.ofText "outputs".toList) = .ok threeCharts := by
    unfold FileSystem.ensureDirectory
    rfl
  rw [performAll_publish (Path.ofText "outputs/plan.mmd".toList)
    (Path.ofText "outputs/plan.svg".toList) hdir rfl]
  rfl

theorem exists_first :
    ∃ (r : Rendering {} threeCharts) (drawing : Text), r.file = "plan.v1.txt".toList
      ∧ r.compiled.code = chart 'A' ∧ r.left = withFirst (chart 'A') drawing := by
  obtain ⟨r, hfile, hcode⟩ : ∃ r : Rendering {} threeCharts,
      r.file = "plan.v1.txt".toList ∧ r.compiled.code = chart 'A' :=
    exists_rendering (.inl rfl) rfl rfl fun compiled drawing =>
      congrArg Prod.snd (performAll_first compiled drawing)
  refine ⟨r, r.drawing, hfile, hcode, ?_⟩
  rw [r.left_eq, Rendering.stem, hfile, performAll_first, hcode]

theorem exists_next (code drawing : Text) {file : Text}
    (hfile : file = "plan.v2.txt".toList ∨ file = "shop.txt".toList) :
    ∃ r : Rendering {} (withFirst code drawing), r.file = file
      ∧ r.compiled.code = chart 'B' := by
  have hdir : (withFirst code drawing).ensureDirectory (Path.ofText "outputs".toList)
      = .ok (withFirst code drawing) := by
    unfold FileSystem.ensureDirectory
    rfl
  rcases hfile with rfl | rfl
  · refine exists_rendering (.inr rfl) rfl rfl fun compiled drawing' => ?_
    rw [performAll_publish (Path.ofText "outputs/plan.mmd".toList)
      (Path.ofText "outputs/plan.svg".toList) hdir rfl]
    rfl
  · refine exists_rendering (.inr rfl) rfl rfl fun compiled drawing' => ?_
    rw [performAll_publish (Path.ofText "outputs/shop.mmd".toList)
      (Path.ofText "outputs/shop.svg".toList) hdir rfl]
    rfl

/-- A chart of another name leaves the results of the first. -/
theorem results_stay_of_two :
    ∃ (r₁ : Rendering {} threeCharts) (r₂ : Rendering {} r₁.left),
      r₁.file = "plan.v1.txt".toList ∧ r₂.file = "shop.txt".toList
        ∧ r₁.paths.Disjoint r₂.paths ∧ r₁.On r₂.left ∧ r₂.On r₂.left := by
  obtain ⟨r₁, drawing, hfile₁, -, hleft⟩ := exists_first
  obtain ⟨r₂, hfile₂, -⟩ := hleft ▸ exists_next (chart 'A') drawing (.inr rfl)
  obtain ⟨-, ⟨-, hon⟩, hdisjoint, hstay⟩ := r₁.results_stay_iff r₂ rfl
  have hne : resultStem r₁.stem ≠ resultStem r₂.stem := by
    rw [Rendering.stem, Rendering.stem, hfile₁, hfile₂]
    decide
  have hends : ¬ EndsUp ({} : Settings).outputDir := by
    unfold EndsUp
    decide
  exact ⟨r₁, r₂, hfile₁, hfile₂, hdisjoint.2 hne,
    (hstay fun h => absurd h hends).2 (.inl hne), hon⟩

/-- Another version of it does not: the first is rendered to `outputs/plan`,
and so is the second, which takes its place. -/
theorem rendering_overwrites :
    ∃ (r₁ : Rendering {} threeCharts) (r₂ : Rendering {} r₁.left),
      r₁.file = "plan.v1.txt".toList ∧ r₂.file = "plan.v2.txt".toList
        ∧ r₁.stem = "plan.v1".toList ∧ r₂.stem = "plan.v2".toList
        ∧ r₁.report.ending = .done ∧ r₂.report.ending = .done
        ∧ r₁.paths = r₂.paths ∧ r₁.On r₁.left ∧ ¬ r₁.On r₂.left
        ∧ r₁.left.read (Path.ofText "outputs/plan.mmd".toList) = .ok (Text.encode (chart 'A'))
        ∧ r₂.left.read (Path.ofText "outputs/plan.mmd".toList)
          = .ok (Text.encode (chart 'B')) := by
  obtain ⟨r₁, drawing, hfile₁, hcode₁, hleft⟩ := exists_first
  obtain ⟨r₂, hfile₂, hcode₂⟩ := hleft ▸ exists_next (chart 'A') drawing (.inl rfl)
  obtain ⟨-, -, hdone₁, -⟩ := r₁.exists_site
  obtain ⟨-, -, hdone₂, -⟩ := r₂.exists_site
  have hstem₁ : r₁.stem = "plan.v1".toList := by
    rw [Rendering.stem, hfile₁]
    decide
  have hstem₂ : r₂.stem = "plan.v2".toList := by
    rw [Rendering.stem, hfile₂]
    decide
  have hsame : resultStem r₁.stem = resultStem r₂.stem := by
    rw [hstem₁, hstem₂]
    decide
  have hpaths : r₁.paths
      = [Path.ofText "outputs/plan.mmd".toList, Path.ofText "outputs/plan.svg".toList] := by
    rw [Rendering.paths, hstem₁]
    decide
  have hpaths₂ := r₁.paths_eq_of_resultStem r₂ rfl hsame
  have hon₁ := r₁.on_left
  have hon₂ := r₂.on_left
  refine ⟨r₁, r₂, hfile₁, hfile₂, hstem₁, hstem₂, hdone₁, hdone₂, hpaths₂, hon₁, ?_, ?_, ?_⟩
  · rw [r₁.on_left_iff_of_eq r₂ rfl hsame, hcode₁, hcode₂]
    intro hcodes
    exact absurd hcodes.1 (by decide)
  · rw [Rendering.On, hpaths, hcode₁] at hon₁
    exact (List.cons.inj hon₁).1
  · rw [Rendering.On, ← hpaths₂, hpaths, hcode₂] at hon₂
    exact (List.cons.inj hon₂).1

end FreeLabel.CommandLine
