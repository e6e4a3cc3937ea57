/-
What setting the direction does to the files.

# Rejection

A direction that is none is found before anything is written, so every
file stays as it is.

# Rewriting

Otherwise the source is read, its direction is set, and what comes of it is
written where the source was found; no other file changes. A file is read
as a text, though: bytes that encode no character are left out, and lines
end with a line feed. So where setting the direction changes nothing, as
for a flowchart whose layout is to be automatic, the text stays the same,
but the bytes do only if nothing had to be left out or changed in reading
them (`setDirection_keeps_bytes`).
-/
import FreeLabel.CommandLine.Run
import FreeLabel.Proofs.Files
import FreeLabel.Proofs.Text.Utf8

namespace FreeLabel.CommandLine

variable (s : Settings) (host : Host) (moments : List Moment)

variable {args : List Text} {files : FileSystem} {file direction : Text}
  {content : Text.Bytes} {stamp : Nat}

-- ================================================================= a run

/-- What is written over a file whose direction is set. -/
def redirected (content : Text.Bytes) (d : Option Direction) : Text.Bytes :=
  Text.encode (redirect (Text.ofFile content) d)

/-- A run that sets a direction asks for the direction once the file is
found. -/
theorem run_setDirection (hread : read? args = some (.setDirection file direction))
    (hfile : files.find? file = some (.file content stamp)) :
    run s host moments args files
      = match directionArgument direction with
        | .ok d =>
          (setDirectionPlan (Path.ofText file) d (Text.ofFile content)).carryOut
            { files := files }
        | .error _ => { session := { files := files }, ending := .misused } := by
  have hnamed : files.find? (Command.setDirection file direction).file
      = some (.file content stamp) := hfile
  unfold run
  rw [hread]
  simp only [hnamed]
  simp only [runOn, Command.task]
  cases directionArgument direction with
  | error why => rfl
  | ok d => rfl

/-- If there is such a direction, the file is written and no other. -/
theorem run_redirected (hread : read? args = some (.setDirection file direction))
    (hfile : files.find? file = some (.file content stamp)) {d : Option Direction}
    (hd : directionArgument direction = .ok d) :
    ∃ files', run s host moments args files
        = { session := { files := files' }, ending := .done }
      ∧ files'.find? file = some (.file (redirected content d) (files.writes + 1))
      ∧ ∀ other, files.locate other ≠ files.locate file →
          files'.find? other = files.find? other := by
  obtain ⟨files', hwrite, hfound, hothers⟩ :=
    FileSystem.write_found hfile (redirected content d)
  refine ⟨files', ?_, hfound, hothers⟩
  have hperform : Session.perform { files := files }
      (.write (Path.ofText file) (redirect (Text.ofFile content) d))
        = .ok { files := files' } :=
    congrArg (Except.map fun fs => ({ files := fs } : Session)) hwrite
  rw [run_setDirection s host moments hread hfile, hd]
  simp only [Plan.carryOut, setDirectionPlan, conclude, Session.performAll, hperform]
  rfl

-- ============================================================= the bytes

/-- Setting the direction of a source leaves all files as they are if the
direction is rejected. Otherwise it writes the source with its direction
set, and no other file. If that is the text which was read from the source,
as it is for a flowchart whose layout is to be automatic, the text is read
again; but the bytes stay the same exactly if they encode a text without
carriage returns. -/
theorem setDirection_keeps_bytes (hread : read? args = some (.setDirection file direction))
    (hfile : files.find? file = some (.file content stamp)) :
    (∀ why, directionArgument direction = .error why →
        run s host moments args files
          = { session := { files := files }, ending := .misused })
      ∧ ∀ d, directionArgument direction = .ok d →
          (∃ files', run s host moments args files
              = { session := { files := files' }, ending := .done }
            ∧ files'.find? file = some (.file (redirected content d) (files.writes + 1))
            ∧ ∀ other, files.locate other ≠ files.locate file →
                files'.find? other = files.find? other)
          ∧ (Mode.ofSource (Text.ofFile content) = .flowchart → d = none →
              redirect (Text.ofFile content) d = Text.ofFile content)
          ∧ (redirect (Text.ofFile content) d = Text.ofFile content →
              Text.ofFile (redirected content d) = Text.ofFile content
                ∧ (redirected content d = content
                  ↔ ∃ t : Text, '\r' ∉ t ∧ Text.encode t = content)) := by
  constructor
  · intro why hwhy
    rw [run_setDirection s host moments hread hfile, hwhy]
  · intro d hd
    refine ⟨run_redirected s host moments hread hfile hd, ?_, ?_⟩
    · rintro hmode rfl
      exact redirect_automatic hmode
    · intro hsame
      have hagain : redirected content d = Text.encode (Text.ofFile content) :=
        congrArg Text.encode hsame
      rw [hagain]
      exact ⟨Text.ofFile_encode_ofFile content, Text.encode_ofFile_iff⟩

-- ============================================================== one file

/-- One file in the working directory. -/
def oneFile (content : Text.Bytes) : FileSystem where
  entries := [(["d.mmd".toList], .file content 0)]

theorem find?_oneFile (content : Text.Bytes) :
    (oneFile content).find? "d.mmd".toList = some (.file content 0) := by
  have hlocate : (oneFile content).locate "d.mmd".toList = .ok ["d.mmd".toList] := by rfl
  unfold FileSystem.find?
  rw [hlocate]
  rfl

/-- The command line that sets the direction of that file. -/
def setDirectionOf (direction : String) : List Text :=
  ["set-direction".toList, "d.mmd".toList, direction.toList]

theorem read?_setDirectionOf_auto : read? (setDirectionOf "auto")
    = some (.setDirection "d.mmd".toList "auto".toList) := by
  rfl

/-- Sets the direction of that file, without an engine. -/
def runOne (direction : String) (content : Text.Bytes) : Report :=
  run {} .bare [] (setDirectionOf direction) (oneFile content)

/-- A flowchart keeps its bytes, its umlaut among them, if its layout is to
be automatic, and also if it is to go in a direction that there is not. -/
theorem setDirection_keeps_umlaut :
    (∃ files', runOne "auto" (Text.encode "flowchart TD\nä --> b\n".toList)
        = { session := { files := files' }, ending := .done }
      ∧ files'.find? "d.mmd".toList
        = some (.file (Text.encode "flowchart TD\nä --> b\n".toList) 1))
      ∧ runOne "diagonal" (Text.encode "flowchart TD\nä --> b\n".toList)
        = { session :=
              { files := oneFile (Text.encode "flowchart TD\nä --> b\n".toList) }
            ending := .misused } := by
  generalize hsource : "flowchart TD\nä --> b\n".toList = source
  have hreturn : '\r' ∉ source := by
    rw [← hsource]
    decide
  have hmode : Mode.ofSource (Text.ofFile (Text.encode source)) = .flowchart := by
    rw [Text.ofFile_encode, Text.normalizeLineEnds_eq_self hreturn, ← hsource]
    decide
  have hfile := find?_oneFile (Text.encode source)
  have hdiagonal : read? (setDirectionOf "diagonal")
      = some (.setDirection "d.mmd".toList "diagonal".toList) := by rfl
  obtain ⟨-, hwritten⟩ :=
    setDirection_keeps_bytes {} .bare [] read?_setDirectionOf_auto hfile
  obtain ⟨⟨files', hrun, hfound, -⟩, hautomatic, hkept⟩ := hwritten none rfl
  have hsame : redirected (Text.encode source) none = Text.encode source :=
    (hkept (hautomatic hmode rfl)).2.2 ⟨source, hreturn, rfl⟩
  rw [hsame] at hfound
  refine ⟨⟨files', hrun, hfound⟩, ?_⟩
  exact (setDirection_keeps_bytes {} .bare [] hdiagonal hfile).1 _ rfl

/-- What is left of a flowchart whose layout is to be automatic is what was
read from it. -/
theorem runOne_automatic (hmode : Mode.ofSource (Text.ofFile content) = .flowchart) :
    ∃ files', runOne "auto" content
        = { session := { files := files' }, ending := .done }
      ∧ files'.find? "d.mmd".toList
        = some (.file (Text.encode (Text.ofFile content)) 1) := by
  obtain ⟨files', hrun, hfound, -⟩ :=
    run_redirected {} .bare [] read?_setDirectionOf_auto (find?_oneFile content) rfl
  rw [redirected, redirect_automatic hmode] at hfound
  exact ⟨files', hrun, hfound⟩

/-- A flowchart with line feeds. -/
def withFeeds : Text := "flowchart TD\na --> b\n".toList

/-- Its bytes with a carriage return before each line feed. -/
def returnBytes : Text.Bytes := Text.encode "flowchart TD\r\na --> b\r\n".toList

/-- Its bytes with one more, which encodes nothing. -/
def strayBytes : Text.Bytes := Text.encode withFeeds ++ [0xE4]

theorem ofFile_returnBytes : Text.ofFile returnBytes = withFeeds := by
  rw [returnBytes, Text.ofFile_encode]
  decide

theorem ofFile_strayBytes : Text.ofFile strayBytes = withFeeds := by
  have hstray : Text.decode [] [0xE4] = [] := by
    simp [Text.decode, Text.following?, Text.takeFollowing]
  rw [strayBytes, Text.ofFile, Text.decode_encode_append, hstray]
  decide

/-- Setting the direction changes neither of these flowcharts, and yet they
lose bytes: one its carriage returns, the other the byte that encodes
nothing. -/
theorem setDirection_drops_bytes :
    directionArgument "auto".toList = .ok none
      ∧ (redirect (Text.ofFile returnBytes) none = Text.ofFile returnBytes
        ∧ ∃ files', runOne "auto" returnBytes
            = { session := { files := files' }, ending := .done }
          ∧ files'.find? "d.mmd".toList = some (.file (Text.encode withFeeds) 1)
          ∧ Text.encode withFeeds ≠ returnBytes)
      ∧ (redirect (Text.ofFile strayBytes) none = Text.ofFile strayBytes
        ∧ ∃ files', runOne "auto" strayBytes
            = { session := { files := files' }, ending := .done }
          ∧ files'.find? "d.mmd".toList = some (.file (Text.encode withFeeds) 1)
          ∧ Text.encode withFeeds ≠ strayBytes) := by
  have hmode : Mode.ofSource withFeeds = .flowchart := by decide
  refine ⟨rfl, ?returns, ?stray⟩
  case returns =>
    have hread : Mode.ofSource (Text.ofFile returnBytes) = .flowchart :=
      ofFile_returnBytes ▸ hmode
    obtain ⟨files', hrun, hfound⟩ := runOne_automatic hread
    rw [ofFile_returnBytes] at hfound
    exact ⟨redirect_automatic hread, files', hrun, hfound, by decide⟩
  case stray =>
    have hread : Mode.ofSource (Text.ofFile strayBytes) = .flowchart :=
      ofFile_strayBytes ▸ hmode
    obtain ⟨files', hrun, hfound⟩ := runOne_automatic hread
    rw [ofFile_strayBytes] at hfound
    exact ⟨redirect_automatic hread, files', hrun, hfound, by decide⟩

end FreeLabel.CommandLine
