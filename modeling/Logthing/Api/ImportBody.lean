import Logthing.Api.Import
import Logthing.Api.IncidentPages
import Logthing.Core.Lines
import Logthing.Incidents.Worker

/-!
# Importing a body

`importMessages` reads a body line by line and gives the store one message at a time, so that a body
with a bad line has been stored in part when it is turned away.

**Main results.**  `import_resumed`: what has been stored then are the lines before the one that the
error names, and sending the body again from that line on, mended, does what sending the mended body
at once would have done.
-/

namespace Logthing.Api

/-! ## The loop -/

/-- `maxImportLine`. -/
def maxImportLine : ℕ := 4 * 1024 * 1024

/-- A request body: its bytes, the reader's error if it is not `io.EOF`, and whether the reader
returns the last bytes together with that error or with `io.EOF`. -/
structure ImportBody where
  data : Bytes
  err : Option String := none
  together : Bool := false

/-- What an import works with: the parser's functions, what the text of a token is, and the context,
the source of IDs and the store, each in a state `σ` of the world. -/
structure Importer (σ : Type*) where
  lib : ImportLib
  text : Bytes → List Char
  ctxErr : σ → Option String
  newImportID : σ → String × σ
  append : Message → σ → Option String × σ

/-- `importResult`. -/
structure ImportResult where
  imported : ℕ := 0
  skipped : ℕ := 0
  deriving DecidableEq

/-- The errors of `importMessages`: those of the context, of a line, of the store and of the
scanner. -/
inductive ImportError where
  | cancelled (cause : String)
  | invalid (message : String)
  | append (lineNumber : ℕ) (cause : String)
  | read (cause : String)
  deriving DecidableEq

/-- What `importMessages` returns, and the world it leaves. -/
structure ImportOutcome (σ : Type*) where
  result : ImportResult
  err : Option ImportError
  world : σ

/-- Whether the scanner's buffer can hold a line.  A last line without a line feed may fill it only
if the reader has said by then that there is no more. -/
def fitsImport (together : Bool) (line : Bytes) : Bool :=
  if line.getLast? = some newline then line.length ≤ maxImportLine
  else line.length < maxImportLine || (together && line.length = maxImportLine)

/-- What `bufio.ScanLines` makes of a line: the line feed goes, and one carriage return before. -/
def scanToken (line : Bytes) : Bytes :=
  let line := if line.getLast? = some newline then line.dropLast else line
  if line.getLast? = some 13 then line.dropLast else line

/-- The lines that the scanner reads, and the error it ends with. -/
def ImportBody.scan (body : ImportBody) : List Bytes × Option String :=
  let lines := Lines.all newline body.data
  let read := lines.takeWhile (fitsImport body.together)
  (read, if read.length = lines.length then body.err else some "bufio.Scanner: token too long")

section

variable {σ : Type*}

/-- The loop of `importMessages` over the scanned lines; the scanner ends with `scanErr`. -/
def importLines (im : Importer σ) (scanErr : Option String) :
    List Bytes → ℕ → ImportResult → σ → ImportOutcome σ
  | [], _, result, world => ⟨result, scanErr.map .read, world⟩
  | line :: lines, lineNumber, result, world =>
      match im.ctxErr world with
      | some cause => ⟨result, some (.cancelled cause), world⟩
      | none =>
          let lineNumber := lineNumber + 1
          let line := Text.trimSpace (im.text (scanToken line))
          if line = [] then
            importLines im scanErr lines lineNumber { result with skipped := result.skipped + 1 }
              world
          else
            let (id, drawn) := im.newImportID world
            match parseImportedMessage im.lib id (String.ofList line) lineNumber with
            | .error message => ⟨result, some (.invalid message), world⟩
            | .ok msg =>
                match im.append msg drawn with
                | (some cause, world) => ⟨result, some (.append lineNumber cause), world⟩
                | (none, world) =>
                    importLines im scanErr lines lineNumber
                      { result with imported := result.imported + 1 } world

/-- `importMessages`. -/
def importMessages (im : Importer σ) (body : ImportBody) (world : σ) : ImportOutcome σ :=
  importLines im body.scan.2 body.scan.1 0 {} world

/-- `importMessagesResponse`. -/
structure ImportMessagesResponse where
  status : String
  imported : ℕ
  skipped : ℕ
  deriving DecidableEq

/-- `handleImportMessages`. -/
def handleImportMessages (im : Importer σ) (body : ImportBody) (world : σ) :
    Except ErrorResponse ImportMessagesResponse × σ :=
  let outcome := importMessages im body world
  match outcome.err with
  | some (.invalid message) => (.error ⟨400, message⟩, outcome.world)
  | some _ => (.error ⟨500, "import messages"⟩, outcome.world)
  | none => (.ok ⟨"imported", outcome.result.imported, outcome.result.skipped⟩, outcome.world)

/-! ## Line numbers -/

/-- The line number is in the text of an error and nowhere else. -/
lemma parseImportedMessage_line (lib : ImportLib) (id line : String) :
    ∃ parsed : Except String Message, ∀ lineNumber,
      parseImportedMessage lib id line lineNumber
        = parsed.mapError (invalidImportLine lineNumber) := by
  unfold parseImportedMessage
  cases lib.decode line with
  | error err => exact ⟨.error ("invalid JSON: " ++ err), fun _ => rfl⟩
  | ok raw =>
      by_cases hend : lib.atEnd line = true
      · simp only [hend, Bool.not_true, Bool.false_eq_true, if_false]
        by_cases hempty : trimSpace (importString lib raw "timestamp") = ""
        · exact ⟨.error "timestamp is required", fun _ => by rw [if_pos hempty]; rfl⟩
        · simp only [if_neg hempty]
          cases lib.parseTime (trimSpace (importString lib raw "timestamp")) with
          | error err => exact ⟨.error ("invalid timestamp: " ++ err), fun _ => rfl⟩
          | ok timestamp =>
              cases parseFacility lib (importString lib raw "facility") with
              | error err => exact ⟨.error ("invalid facility: " ++ err), fun _ => rfl⟩
              | ok facility =>
                  cases parseSeverity lib (importString lib raw "severity") with
                  | error err => exact ⟨.error ("invalid severity: " ++ err), fun _ => rfl⟩
                  | ok severity => exact ⟨.ok _, fun _ => rfl⟩
      · refine ⟨.error "invalid trailing JSON", fun _ => ?_⟩
        rw [Bool.not_eq_true] at hend
        simp only [hend, Bool.not_false, if_true]
        rfl

/-- The error of an import, and that of the same import `lines` lines further down. -/
inductive ImportError.Later (lines : ℕ) : Option ImportError → Option ImportError → Prop
  | none : Later lines none none
  | cancelled (cause : String) : Later lines (some (.cancelled cause)) (some (.cancelled cause))
  | invalid (lineNumber : ℕ) (cause : String) :
      Later lines (some (.invalid (invalidImportLine lineNumber cause)))
        (some (.invalid (invalidImportLine (lines + lineNumber) cause)))
  | append (lineNumber : ℕ) (cause : String) :
      Later lines (some (.append lineNumber cause)) (some (.append (lines + lineNumber) cause))
  | read (cause : String) : Later lines (some (.read cause)) (some (.read cause))

variable {im : Importer σ}

/-- **An import that starts further down** does the same, counts on and names later lines. -/
lemma importLines_later (scanErr : Option String) (below : ℕ) (before : ImportResult)
    (lines : List Bytes) (lineNumber : ℕ) (result : ImportResult) (world : σ) :
    let outcome := importLines im scanErr lines lineNumber result world
    let later := importLines im scanErr lines (below + lineNumber)
      ⟨before.imported + result.imported, before.skipped + result.skipped⟩ world
    later.world = outcome.world ∧
      later.result = ⟨before.imported + outcome.result.imported,
        before.skipped + outcome.result.skipped⟩ ∧
      ImportError.Later below outcome.err later.err := by
  induction lines generalizing lineNumber result world with
  | nil =>
      refine ⟨rfl, rfl, ?_⟩
      cases scanErr with
      | none => exact .none
      | some cause => exact .read cause
  | cons line lines ih =>
      simp only [importLines]
      cases im.ctxErr world with
      | some cause => exact ⟨rfl, rfl, .cancelled cause⟩
      | none =>
          dsimp only
          split_ifs with hblank
          · exact ih (lineNumber + 1) { result with skipped := result.skipped + 1 } world
          · obtain ⟨parsed, hparsed⟩ := parseImportedMessage_line im.lib (im.newImportID world).1
              (String.ofList (Text.trimSpace (im.text (scanToken line))))
            simp only [hparsed]
            cases parsed with
            | error cause => exact ⟨rfl, rfl, .invalid (lineNumber + 1) cause⟩
            | ok msg =>
                simp only [Except.mapError]
                cases happend : im.append msg (im.newImportID world).2 with
                | mk failed world' =>
                    cases failed with
                    | some cause => exact ⟨rfl, rfl, .append (lineNumber + 1) cause⟩
                    | none =>
                        exact ih (lineNumber + 1) { result with imported := result.imported + 1 }
                          world'

/-! ## One part after the other -/

/-- What an import has done with a line that it got past: nothing with a blank one, and otherwise
the store has taken the message. -/
inductive Importer.Passes (im : Importer σ) (lineNumber : ℕ) (line : Bytes) :
    ImportResult → σ → ImportResult → σ → Prop
  | blank {result : ImportResult} {world : σ} (hctx : im.ctxErr world = none)
      (hline : Text.trimSpace (im.text (scanToken line)) = []) :
      Passes im lineNumber line result world { result with skipped := result.skipped + 1 } world
  | stored {result : ImportResult} {world world' : σ} {msg : Message}
      (hctx : im.ctxErr world = none)
      (hline : Text.trimSpace (im.text (scanToken line)) ≠ [])
      (hmsg : parseImportedMessage im.lib (im.newImportID world).1
        (String.ofList (Text.trimSpace (im.text (scanToken line)))) lineNumber = .ok msg)
      (happend : im.append msg (im.newImportID world).2 = (none, world')) :
      Passes im lineNumber line result world { result with imported := result.imported + 1 } world'

/-- **What one line can do**: the import gets past it, or ends there with an error, and then not
with the scanner's. -/
lemma importLines_cons (im : Importer σ) (line : Bytes) (lineNumber : ℕ) (result : ImportResult)
    (world : σ) :
    (∃ result' world', im.Passes (lineNumber + 1) line result world result' world' ∧
      ∀ scanErr lines, importLines im scanErr (line :: lines) lineNumber result world
        = importLines im scanErr lines (lineNumber + 1) result' world') ∨
    (∃ err world', (∀ scanErr lines, importLines im scanErr (line :: lines) lineNumber result world
        = ⟨result, some err, world'⟩) ∧
      ∀ message, err = .invalid message →
        world' = world ∧ ∃ cause, message = invalidImportLine (lineNumber + 1) cause) := by
  simp only [importLines]
  cases hctx : im.ctxErr world with
  | some cause => exact Or.inr ⟨.cancelled cause, world, fun _ _ => rfl, fun _ h => by cases h⟩
  | none =>
      by_cases hblank : Text.trimSpace (im.text (scanToken line)) = []
      · refine Or.inl ⟨_, world, .blank hctx hblank, fun _ _ => ?_⟩
        simp only [hblank, if_true]
      · simp only [if_neg hblank]
        cases hmsg : parseImportedMessage im.lib (im.newImportID world).1
            (String.ofList (Text.trimSpace (im.text (scanToken line)))) (lineNumber + 1) with
        | error message =>
            refine Or.inr ⟨.invalid message, world, fun _ _ => rfl, fun message' h => ⟨rfl, ?_⟩⟩
            obtain rfl := ImportError.invalid.inj h
            obtain ⟨parsed, hparsed⟩ := parseImportedMessage_line im.lib (im.newImportID world).1
              (String.ofList (Text.trimSpace (im.text (scanToken line))))
            rw [hparsed] at hmsg
            cases parsed with
            | error cause => exact ⟨cause, (Except.error.inj hmsg).symm⟩
            | ok msg => cases hmsg
        | ok msg =>
            cases happend : im.append msg (im.newImportID world).2 with
            | mk failed world' =>
                cases failed with
                | some cause =>
                    exact Or.inr ⟨.append (lineNumber + 1) cause, world',
                      fun _ _ => by simp only [happend], fun _ h => by cases h⟩
                | none =>
                    exact Or.inl ⟨_, world', .stored hctx hblank hmsg happend,
                      fun _ _ => by simp only [happend]⟩

/-- An import that gets past its first lines goes on with the others. -/
lemma importLines_append {first : List Bytes} {lineNumber : ℕ} {result : ImportResult} {world : σ}
    (h : (importLines im none first lineNumber result world).err = none) (scanErr : Option String)
    (lines : List Bytes) :
    importLines im scanErr (first ++ lines) lineNumber result world
      = importLines im scanErr lines (lineNumber + first.length)
          (importLines im none first lineNumber result world).result
          (importLines im none first lineNumber result world).world := by
  induction first generalizing lineNumber result world with
  | nil => rfl
  | cons line first ih =>
      obtain ⟨result', world', -, hpast⟩ | ⟨err, world', hstops, -⟩ :=
        importLines_cons im line lineNumber result world
      · rw [hpast] at h ⊢
        rw [List.cons_append, hpast, ih h, List.length_cons, Nat.add_right_comm, Nat.add_assoc]
      · rw [hstops] at h
        cases h

/-- Every line that an import gets past is counted. -/
lemma importLines_counts {lines : List Bytes} {lineNumber : ℕ} {result : ImportResult} {world : σ}
    {scanErr : Option String}
    (h : (importLines im scanErr lines lineNumber result world).err = none) :
    let outcome := importLines im scanErr lines lineNumber result world
    outcome.result.imported + outcome.result.skipped
      = result.imported + result.skipped + lines.length := by
  induction lines generalizing lineNumber result world with
  | nil => rfl
  | cons line lines ih =>
      obtain ⟨result', world', hpasses, hpast⟩ | ⟨err, world', hstops, -⟩ :=
        importLines_cons im line lineNumber result world
      · rw [hpast] at h ⊢
        have hlines := ih h
        cases hpasses <;> simp only [List.length_cons] at hlines ⊢ <;> omega
      · rw [hstops] at h
        cases h

/-- **Where an import is turned away**: it got past the lines before the one that is named, and has
done nothing since. -/
lemma importLines_invalid {lines : List Bytes} {lineNumber : ℕ} {result : ImportResult} {world : σ}
    {scanErr : Option String} {message : String}
    (h : (importLines im scanErr lines lineNumber result world).err = some (.invalid message)) :
    ∃ first line rest cause, lines = first ++ line :: rest ∧
      message = invalidImportLine (lineNumber + first.length + 1) cause ∧
      importLines im none first lineNumber result world
        = ⟨(importLines im scanErr lines lineNumber result world).result, none,
            (importLines im scanErr lines lineNumber result world).world⟩ := by
  induction lines generalizing lineNumber result world with
  | nil =>
      cases scanErr with
      | none => cases h
      | some cause => cases h
  | cons line lines ih =>
      obtain ⟨result', world', -, hpast⟩ | ⟨err, world', hstops, hinvalid⟩ :=
        importLines_cons im line lineNumber result world
      · rw [hpast] at h ⊢
        obtain ⟨first, bad, rest, cause, rfl, hmessage, houtcome⟩ := ih h
        refine ⟨line :: first, bad, rest, cause, rfl, ?_, ?_⟩
        · rw [hmessage, List.length_cons, Nat.add_right_comm lineNumber 1, Nat.add_assoc lineNumber]
        · rw [hpast, houtcome]
      · rw [hstops] at h
        obtain ⟨rfl, cause, hmessage⟩ := hinvalid message (Option.some.inj h)
        refine ⟨[], line, lines, cause, rfl, hmessage, ?_⟩
        rw [hstops]
        rfl

/-! ## Bodies -/

lemma fitsImport_of_isLine {line : Bytes} (h : Lines.IsLine newline line) (together : Bool) :
    fitsImport together line = decide (line.length ≤ maxImportLine) := by
  obtain ⟨body, rfl, -⟩ := h
  rw [fitsImport, if_pos List.getLast?_concat]

/-- A body that starts with whole lines is scanned as these lines and then as the rest of it. -/
lemma scan_append {first : List Bytes} (hlines : ∀ line ∈ first, Lines.IsLine newline line)
    (hfits : ∀ line ∈ first, line.length ≤ maxImportLine) (body : ImportBody) :
    ImportBody.scan { body with data := first.flatten ++ body.data }
      = (first ++ body.scan.1, body.scan.2) := by
  have hfirst : Lines.all newline first.flatten = first := by
    rw [Lines.all, Lines.terminated_flatten newline hlines, Lines.rest_flatten newline hlines,
      if_pos rfl, List.append_nil]
  have hall : Lines.all newline (first.flatten ++ body.data)
      = first ++ Lines.all newline body.data := by
    rw [Lines.all_append_of_rest_eq_nil newline (Lines.rest_flatten newline hlines), hfirst]
  have hread : ∀ line ∈ first, fitsImport body.together line = true := by
    intro line hline
    rw [fitsImport_of_isLine (hlines line hline), decide_eq_true (hfits line hline)]
  simp only [ImportBody.scan, hall, List.takeWhile_append_of_pos hread, List.length_append,
    Nat.add_left_cancel_iff]

/-- The answer to an import, and that to the same body after `lines` lines of which so many have
been imported and so many skipped. -/
inductive Continues (lines imported skipped : ℕ) :
    Except ErrorResponse ImportMessagesResponse → Except ErrorResponse ImportMessagesResponse → Prop
  | imported (more blank : ℕ) : Continues lines imported skipped (.ok ⟨"imported", more, blank⟩)
      (.ok ⟨"imported", imported + more, skipped + blank⟩)
  | rejected (lineNumber : ℕ) (cause : String) : Continues lines imported skipped
      (.error ⟨400, invalidImportLine lineNumber cause⟩)
      (.error ⟨400, invalidImportLine (lines + lineNumber) cause⟩)
  | failed : Continues lines imported skipped (.error ⟨500, "import messages"⟩)
      (.error ⟨500, "import messages"⟩)

/-- The handler on whole lines that an import gets past, and on what may follow them. -/
lemma handleImportMessages_append {first : List Bytes}
    (hlines : ∀ line ∈ first, Lines.IsLine newline line)
    (hfits : ∀ line ∈ first, line.length ≤ maxImportLine) {result : ImportResult} {world world' : σ}
    (hfirst : importLines im none first 0 {} world = ⟨result, none, world'⟩) (body : ImportBody) :
    let whole := handleImportMessages im { body with data := first.flatten ++ body.data } world
    let resumed := handleImportMessages im body world'
    Continues first.length result.imported result.skipped resumed.1 whole.1 ∧
      whole.2 = resumed.2 := by
  obtain ⟨hworld, hresult, herr⟩ :=
    importLines_later body.scan.2 first.length result body.scan.1 0 {} world'
  have hwhole : importMessages im { body with data := first.flatten ++ body.data } world
      = importLines im body.scan.2 body.scan.1 (first.length + 0)
          ⟨result.imported + 0, result.skipped + 0⟩ world' := by
    rw [importMessages, scan_append hlines hfits, importLines_append (by rw [hfirst]), hfirst]
    rw [Nat.zero_add, Nat.add_zero, Nat.add_zero, Nat.add_zero]
  rw [← hwhole] at hworld hresult herr
  rw [← importMessages] at hworld hresult herr
  simp only [handleImportMessages]
  generalize importMessages im { body with data := first.flatten ++ body.data } world = whole at *
  generalize importMessages im body world' = resumed at *
  obtain ⟨result₁, err₁, world₁⟩ := whole
  obtain ⟨result₂, err₂, world₂⟩ := resumed
  dsimp only at hworld hresult herr ⊢
  subst hworld hresult
  cases herr with
  | none => exact ⟨.imported _ _, rfl⟩
  | cancelled cause => exact ⟨.failed, rfl⟩
  | invalid lineNumber cause => exact ⟨.rejected lineNumber cause, rfl⟩
  | append lineNumber cause => exact ⟨.failed, rfl⟩
  | read cause => exact ⟨.failed, rfl⟩

/-- The lines before one that is scanned are whole and fit the scanner. -/
lemma scan_prefix {body : ImportBody} {first rest : List Bytes} {line : Bytes}
    (h : body.scan.1 = first ++ line :: rest) :
    (∀ l ∈ first, Lines.IsLine newline l ∧ l.length ≤ maxImportLine) ∧
      ∃ after, Lines.all newline body.data = first ++ line :: after := by
  have hread : (Lines.all newline body.data).takeWhile (fitsImport body.together)
      = first ++ line :: rest := h
  have hprefix : (Lines.all newline body.data).takeWhile (fitsImport body.together)
      <+: Lines.all newline body.data := List.takeWhile_prefix _
  rw [hread] at hprefix
  obtain ⟨dropped, hdropped⟩ := hprefix
  rw [List.append_assoc, List.cons_append] at hdropped
  refine ⟨fun l hl => ?_, rest ++ dropped, hdropped.symm⟩
  have hline := Lines.isLine_of_all_eq newline hdropped.symm l hl
  have hfits : fitsImport body.together l = true := by
    have hmem : l ∈ (Lines.all newline body.data).takeWhile (fitsImport body.together) := by
      rw [hread]
      exact List.mem_append_left _ hl
    exact List.mem_takeWhile_imp hmem
  rw [fitsImport_of_isLine hline] at hfits
  exact ⟨hline, of_decide_eq_true hfits⟩

/-- **A rejected import can be taken up where it stopped.**  When an import is turned away, its
error names a line of the body: the import has left the world as the import of the lines before
would have, which is answered with as many lines imported or skipped.  To send any other body then,
such as the rest with that line mended, does what it would have done to send the lines before and
that body at once: the world is the same, the counts add up, and an error is the same some lines
further down. -/
theorem import_resumed (im : Importer σ) (body : ImportBody) (world : σ) (message : String)
    (h : (handleImportMessages im body world).1 = .error ⟨400, message⟩) :
    ∃ first line rest cause imported skipped,
      Lines.all newline body.data = first ++ line :: rest ∧
      message = invalidImportLine (first.length + 1) cause ∧
      imported + skipped = first.length ∧
      handleImportMessages im ⟨first.flatten, none, false⟩ world
        = (.ok ⟨"imported", imported, skipped⟩, (handleImportMessages im body world).2) ∧
      ∀ mended : ImportBody,
        let whole :=
          handleImportMessages im { mended with data := first.flatten ++ mended.data } world
        let resumed := handleImportMessages im mended (handleImportMessages im body world).2
        Continues first.length imported skipped resumed.1 whole.1 ∧ whole.2 = resumed.2 := by
  obtain ⟨herr, hworld⟩ : (importMessages im body world).err = some (.invalid message) ∧
      (handleImportMessages im body world).2 = (importMessages im body world).world := by
    simp only [handleImportMessages] at h ⊢
    generalize (importMessages im body world).err = err at h ⊢
    cases err with
    | none => cases h
    | some err =>
        cases err with
        | invalid message' =>
            obtain rfl := (ErrorResponse.mk.inj (Except.error.inj h)).2
            exact ⟨rfl, rfl⟩
        | cancelled cause => cases h
        | append lineNumber cause => cases h
        | read cause => cases h
  obtain ⟨first, line, rest, cause, hscan, hmessage, hfirst⟩ := importLines_invalid herr
  obtain ⟨hlines, after, hall⟩ := scan_prefix hscan
  have hcounts := importLines_counts (congrArg ImportOutcome.err hfirst)
  rw [hfirst] at hcounts
  have hafter := fun mended => handleImportMessages_append (fun l hl => (hlines l hl).1)
    (fun l hl => (hlines l hl).2) hfirst mended
  rw [hworld]
  refine ⟨first, line, after, cause, _, _, hall, ?_, ?_, ?_, hafter⟩
  · rw [hmessage, Nat.zero_add]
  · exact hcounts.trans (Nat.zero_add _)
  · have hwhole := scan_append (fun l hl => (hlines l hl).1) (fun l hl => (hlines l hl).2)
      ⟨[], none, false⟩
    simp only [List.append_nil] at hwhole
    have hnone : ImportBody.scan ⟨[], none, false⟩ = ([], none) := rfl
    rw [hnone, List.append_nil] at hwhole
    simp only [handleImportMessages, importMessages, hwhole, hfirst]

end

/-- The line the row of `pppd` is stored as. -/
def pppdStored : Bytes :=
  utf8Bytes ("\x7b\"id\":\"9a31\",\"received_at\":\"2026-09-23T10:36:54Z\"," ++
    "\"timestamp\":\"2026-09-23T10:36:54Z\",\"transport\":\"import\",\"priority\":28," ++
    "\"facility\":3,\"severity\":4,\"hostname\":\"unknown\"," ++
    "\"message\":\"LCP terminated by peer\",\"raw\":\x7b\"app_name\":\"pppd\",\"facility\":3," ++
    "\"hostname\":\"potato\",\"id\":\"5f0c\",\"message\":\"LCP terminated by peer\"," ++
    "\"priority\":28,\"proc_id\":\"2017\",\"received_at\":\"2026-09-23T10:36:54Z\"," ++
    "\"severity\":4,\"tag\":\"pppd\",\"timestamp\":\"2026-09-23T10:36:54Z\"," ++
    "\"transport\":\"udp\"\x7d\x7d")

/-- What the row of `pppd` is imported as. -/
def pppdImported : Message :=
  importedMessage pppdLib "9a31" (some pppdFields) pppd.receivedAt pppd.facility pppd.severity

/-- Imports into the files of a data directory. -/
def pppdImporter : Importer Disk where
  lib := pppdLib
  text token := token.map fun b => Char.ofNat b.toNat
  ctxErr _ := none
  newImportID disk := ("9a31", disk)
  append msg disk :=
    let (disk, err) :=
      Logthing.append (.ofLines [(pppdImported, pppdStored)]) pppd.receivedAt .none disk msg
    (err, disk)

/-- The row of `pppd`, a blank line and a row that has been cut off. -/
def pppdBody : ImportBody := { data := utf8Bytes (pppdLine ++ "\n\n\x7b\n") }

/-- The row is stored, and what is mended is sent from the third line on. -/
theorem import_resumed_pppd :
    ∃ first line rest cause imported skipped,
      Lines.all newline pppdBody.data = first ++ line :: rest ∧
      "line 3: invalid JSON: unexpected EOF" = invalidImportLine (first.length + 1) cause ∧
      imported + skipped = first.length ∧
      handleImportMessages pppdImporter ⟨first.flatten, none, false⟩ Disk.empty
        = (.ok ⟨"imported", imported, skipped⟩,
          (handleImportMessages pppdImporter pppdBody Disk.empty).2) ∧
      ∀ mended : ImportBody,
        let whole := handleImportMessages pppdImporter
          { mended with data := first.flatten ++ mended.data } Disk.empty
        let resumed := handleImportMessages pppdImporter mended
          (handleImportMessages pppdImporter pppdBody Disk.empty).2
        Continues first.length imported skipped resumed.1 whole.1 ∧ whole.2 = resumed.2 :=
  import_resumed pppdImporter pppdBody Disk.empty "line 3: invalid JSON: unexpected EOF"
    (by decide +kernel)

end Logthing.Api
