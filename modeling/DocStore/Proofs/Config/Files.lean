/-
Configuration files, there and back.

A configuration is written as plain lines, of which the one with the limit is left out when there is
no limit, and read by names, where what is not mentioned is as in the default.  The two ends meet
because each number that is written fits the signed words of a document: a limit always does, and a
delay does exactly if a text was made at all.  An operation that fails may leave a file half done,
as opening a file to write to it already empties it.  Writing a configuration does not, since its
text is made before the file is opened.

* `Config.lines`, `Config.defaultNotes` — the lines of a configuration, and those of the default
  one with its explanations;
* `Config.toList_text`, `Config.toList_defaultText` — the texts are these lines;
* `Config.ofToml?_lines` — what the lines of a configuration define is the configuration;
* `Config.parse_of_text`, `Config.parse_defaultText` — **a written configuration is read back**;
* `Folder.run_create`, `Folder.run_replace` — a file that is opened to be written is empty, and then
  holds what is written;
* `Config.write_leaves` — **a configuration that is not written leaves all files as they were**;
* `Config.read_after_write` — **writing a configuration to a file either makes it what the file
  holds or fails for a delay that does not fit, with all files as they were, and the default
  configuration is written over nothing.**
-/

import DocStore.Config.File
import DocStore.Proofs.Toml.Lines

set_option autoImplicit false

namespace DocStore

namespace Config

open Toml

/-! ### Lines -/

/-- The lines of a configuration. -/
def lines (config : Config) : List Line :=
  .header "retry" ::
    ((config.retry.maxAttempts.map fun n => .entry "max_attempts" n.toNat).toList ++
      [.entry "base_delay_ms" config.retry.baseDelayMs.toNat,
        .entry "max_delay_ms" config.retry.maxDelayMs.toNat])

/-- The lines of the default configuration with its explanations. -/
def defaultNotes : List Line :=
  [.comment " folio configuration",
    .comment "",
    .comment " Compare-and-swap retry policy, used by document writes, read-modify-write",
    .comment " updates and index bucket maintenance.",
    .header "retry",
    .comment " Attempts per operation before giving up. Omit to retry forever (default).",
    .comment " max_attempts = 64",
    .blank,
    .comment " Exponential backoff between attempts, in milliseconds. 0 = retry at once.",
    .entry "base_delay_ms" 0,
    .entry "max_delay_ms" 0]

/-- Both delays fit the integers of a document. -/
def Fits (config : Config) : Prop :=
  config.retry.baseDelayMs.toNat < delayLimit ∧ config.retry.maxDelayMs.toNat < delayLimit

instance (config : Config) : Decidable config.Fits :=
  inferInstanceAs (Decidable (_ ∧ _))

/-- The keys of a configuration need no quotes. -/
theorem isBare_of_mem :
    ∀ key ∈ ["retry", "max_attempts", "base_delay_ms", "max_delay_ms"], IsBare key := by
  decide +kernel

/-- A configuration whose delays fit is written in plain lines; a limit fits in any case. -/
theorem plain_lines {config : Config} (fits : config.Fits) :
    ∀ line ∈ config.lines, line.Plain := by
  have bare := isBare_of_mem
  simp only [List.forall_mem_cons] at bare
  obtain ⟨retry, limit, base, greatest, -⟩ := bare
  intro line mem
  rw [lines, List.mem_cons, List.mem_append, Option.mem_toList, Option.map_eq_some_iff] at mem
  obtain rfl | ⟨n, -, rfl⟩ | mem := mem
  · exact retry
  · have small : n.toNat < UInt32.size := n.toNat_lt
    exact ⟨limit, Nat.lt_trans small (by decide)⟩
  · simp only [List.mem_cons, List.not_mem_nil, or_false] at mem
    obtain rfl | rfl := mem
    · exact ⟨base, fits.1⟩
    · exact ⟨greatest, fits.2⟩

/-- The explanations are plain lines. -/
theorem plain_defaultNotes : ∀ line ∈ defaultNotes, line.Plain := by
  decide +kernel

/-! ### Texts -/

theorem toList_line (key : String) (n : Nat) :
    (line key n).toList = (Line.entry key n).chars := by
  rw [← Line.toList_text, line, String.toList_append]
  rfl

/-- **A configuration has a text exactly if its delays fit**, and the text is its lines. -/
theorem text_cases (config : Config) :
    (config.Fits ∧ ∃ text, config.text = .ok text ∧
      text.toList = config.lines.flatMap Line.chars) ∨
    (¬config.Fits ∧ config.text = .error .config) := by
  by_cases fits : config.Fits
  · refine .inl ⟨fits, _, if_pos fits, ?_⟩
    cases h : config.retry.maxAttempts <;>
      simp [lines, h, toList_line, Line.chars]
  · exact .inr ⟨fits, if_neg fits⟩

/-- The explained default configuration is its lines. -/
theorem toList_defaultText : defaultText.toList = defaultNotes.flatMap Line.chars := by
  have lines : defaultLines = defaultNotes.map Line.text := by decide +kernel
  rw [defaultText, lines, String.toList_join, List.map_map, List.flatMap_map]
  refine congrArg List.flatten (List.map_congr_left fun line _ => ?_)
  rw [Function.comp_apply, String.toList_append]
  exact line.toList_text

/-! ### Reading what is written -/

/-- A number that fits both its setting and a document is read as itself. -/
theorem natural?_ofInt {n bound : Nat} (small : n < bound) (fits : n < delayLimit) :
    (Toml.Value.integer (Int64.ofInt n)).natural? bound = some n := by
  have value : (Int64.ofInt n).toInt = n := by
    rw [delayLimit] at fits
    exact Int64.toInt_ofInt_of_le (by omega) (by omega)
  have range : (0 : Int) ≤ n ∧ (n : Int) < bound := ⟨by omega, by omega⟩
  simp only [Toml.Value.natural?, value, if_pos range, Int.toNat_natCast]

/-- The lines of a configuration define one table, with its settings by name. -/
theorem ofStatements?_lines (config : Config) :
    ofStatements? (config.lines.filterMap Line.statement?)
      = some [("retry", .table .header
          ((config.retry.maxAttempts.map fun n =>
              ("max_attempts", .integer (Int64.ofInt n.toNat))).toList ++
            [("base_delay_ms", .integer (Int64.ofInt config.retry.baseDelayMs.toNat)),
              ("max_delay_ms", .integer (Int64.ofInt config.retry.maxDelayMs.toNat))]))] := by
  obtain ⟨limit, base, greatest⟩ := config
  cases limit <;>
    simp [lines, Line.statement?, ofStatements?, Document.add?, Document.empty, openTable,
      within, inside, assign, find?, put]

/-- **What the lines of a configuration define is the configuration.**  A limit that is not there is
read as none. -/
theorem ofToml?_lines {config : Config} (fits : config.Fits) :
    (ofStatements? (config.lines.filterMap Line.statement?)).bind ofToml? = some config := by
  obtain ⟨limit, base, greatest⟩ := config
  have readBase := natural?_ofInt base.toNat_lt fits.1
  have readGreatest := natural?_ofInt greatest.toNat_lt fits.2
  rw [ofStatements?_lines, Option.bind_some]
  cases limit with
  | none =>
      simp [find?, ofToml?, RetryPolicy.ofToml?, RetryPolicy.ofSettings?, RetryPolicy.setting?,
        readBase, readGreatest]
  | some n =>
      have readLimit := natural?_ofInt n.toNat_lt (Nat.lt_trans n.toNat_lt (by decide))
      simp [find?, ofToml?, RetryPolicy.ofToml?, RetryPolicy.ofSettings?, RetryPolicy.setting?,
        readLimit, readBase, readGreatest]

/-- **A configuration is read back from its text.** -/
theorem parse_of_text {config : Config} {text : String} (h : config.text = .ok text) :
    parse text = .ok config := by
  obtain ⟨fits, _, made, chars⟩ | ⟨-, failed⟩ := text_cases config
  · cases made.symm.trans h
    rw [parse, parse?_chars (plain_lines fits) chars, ofToml?_lines fits]
  · cases failed.symm.trans h

/-- **The explained default configuration is read as the default.** -/
theorem parse_defaultText : parse defaultText = .ok default := by
  have entries : (ofStatements? (defaultNotes.filterMap Line.statement?)).bind ofToml?
      = some default :=
    @ofToml?_lines default (by decide)
  rw [parse, parse?_chars plain_defaultNotes toList_defaultText, entries]

end Config

/-! ### Files -/

namespace Folder

variable (before : Folder) {name : String}

theorem bytes?_put (name : String) (bytes : Bytes) (other : String) :
    (before.put name bytes).bytes? other
      = if other = name then some bytes else before.bytes? other :=
  SortedMap.find?_insert before.files name other bytes

/-- A name that a file can have is no name of a folder, so there is something if there is a file. -/
theorem holds_of_admits (admitted : admits name = true) :
    before.holds name = (before.bytes? name).isSome := by
  simp only [admits, Bool.and_eq_true, Bool.not_eq_true'] at admitted
  rw [holds, admitted.1.1, Bool.false_or]

/-- A file that is opened to be written is empty by then. -/
theorem run_create (admitted : admits name = true) :
    (create name).run before = .ok () (before.put name []) := by
  rw [create, if_pos admitted]
  rfl

/-- **A file that is written holds what is written**, and nothing of what it held; no other file is
touched. -/
theorem run_replace (admitted : admits name = true) (bytes : Bytes) :
    ∃ after, (replace name bytes).run before = .ok () after ∧
      ∀ other, after.bytes? other = if other = name then some bytes else before.bytes? other := by
  have goes : (replace name bytes).run before = (append name bytes).run (before.put name []) := by
    change EStateM.bind (create name) (fun _ => append name bytes) before = _
    rw [EStateM.bind, show create name before = _ from before.run_create admitted]
    rfl
  have emptied : (before.put name []).bytes? name = some [] := by rw [bytes?_put, if_pos rfl]
  refine ⟨(before.put name []).put name bytes, ?_, fun other => ?_⟩
  · rw [goes]
    change EStateM.Result.ok () ((before.put name []).put name _) = _
    rw [emptied, Option.getD_some, List.nil_append]
  · rw [bytes?_put, bytes?_put]
    split <;> rfl

/-- A file that cannot be opened is not written. -/
theorem run_replace_of_not_admits (refused : admits name = false) (bytes : Bytes) :
    (replace name bytes).run before = .error .io before := by
  have closed : create name = throw .io := if_neg (by simp [refused])
  rw [replace, closed]
  rfl

end Folder

namespace Config

/-- A file that holds a text is read as the text. -/
theorem read_of_bytes {folder : Folder} {name text : String}
    (h : folder.bytes? name = some (Utf8.encode text)) : read folder name = parse text := by
  rw [read, Folder.text?, h, Option.bind_some, Utf8.decode?_encode]

/-- A configuration is written by writing its text. -/
theorem run_write_of_text {config : Config} {text : String} (made : config.text = .ok text)
    (before : Folder) (name : String) :
    (config.write name).run before = (Folder.replace name (Utf8.encode text)).run before := by
  rw [write, made]
  rfl

/-- A configuration that does not fit is not written, and no file is touched. -/
theorem run_write_of_not_fits {config : Config} (unfit : ¬config.Fits) (before : Folder)
    (name : String) : (config.write name).run before = .error .config before := by
  obtain ⟨fits, -⟩ | ⟨-, failed⟩ := text_cases config
  · exact absurd fits unfit
  · rw [write, failed]
    rfl

/-- A configuration that fits is written, and no other file is touched. -/
theorem run_write_of_fits {config : Config} (fits : config.Fits) (before : Folder) {name : String}
    (admitted : Folder.admits name = true) :
    ∃ after, (config.write name).run before = .ok () after ∧ read after name = .ok config ∧
      ∀ other, other ≠ name → after.bytes? other = before.bytes? other := by
  obtain ⟨-, text, made, -⟩ | ⟨unfit, -⟩ := text_cases config
  · obtain ⟨after, done, bytes⟩ := before.run_replace admitted (Utf8.encode text)
    refine ⟨after, (run_write_of_text made before name).trans done, ?_, ?_⟩
    · rw [read_of_bytes ((bytes name).trans (if_pos rfl)), parse_of_text made]
    · exact fun other ne => (bytes other).trans (if_neg ne)
  · exact absurd fits unfit

/-- **A configuration that is not written leaves all files as they were**, for whatever reason. -/
theorem write_leaves {config : Config} {before left : Folder} {name : String} {e : Error}
    (failed : (config.write name).run before = .error e left) : left = before := by
  obtain ⟨-, text, made, -⟩ | ⟨unfit, -⟩ := text_cases config
  · rw [run_write_of_text made] at failed
    cases admitted : Folder.admits name with
    | true =>
        obtain ⟨after, done, -⟩ := before.run_replace admitted (Utf8.encode text)
        cases done.symm.trans failed
    | false =>
        cases (before.run_replace_of_not_admits admitted _).symm.trans failed
        rfl
  · cases (run_write_of_not_fits unfit before name).symm.trans failed
    rfl

/-- The default configuration is written where no file is, and nothing else is touched. -/
theorem run_writeDefault_cases (before : Folder) {name : String}
    (admitted : Folder.admits name = true) :
    ∃ after, (writeDefault name).run before = .ok () after ∧
      (∀ other, before.bytes? other ≠ none ∨ other ≠ name →
        after.bytes? other = before.bytes? other) ∧
      read after name
        = if before.bytes? name = none then .ok Config.default else read before name := by
  have looked : (writeDefault name).run before = (if !before.holds name then
      Folder.replace name (Utf8.encode defaultText) else pure ()).run before := rfl
  rw [looked, before.holds_of_admits admitted]
  cases there : before.bytes? name with
  | some bytes => exact ⟨before, rfl, fun _ _ => rfl, rfl⟩
  | none =>
      obtain ⟨after, done, bytes⟩ := before.run_replace admitted (Utf8.encode defaultText)
      refine ⟨after, done, ?_, ?_⟩
      · rintro other (present | ne)
        · have ne : other ≠ name := fun eq => present (eq ▸ there)
          exact (bytes other).trans (if_neg ne)
        · exact (bytes other).trans (if_neg ne)
      · rw [if_pos rfl, read_of_bytes ((bytes name).trans (if_pos rfl)), parse_defaultText]

/-- **Configuration files round-trip.**  Whatever a file holds, a configuration is either written
to it and then read back from it, with all other files as they were, or it is refused for a delay
beyond the signed integers of 64 bits, and leaves all files as they were.  The default configuration
is written only where no file is: a file that is there keeps its bytes, and reading gives what it
gave before or the default. -/
theorem read_after_write (config : Config) (before : Folder) {name : String}
    (admitted : Folder.admits name = true) :
    ((∃ after, (config.write name).run before = .ok () after ∧ read after name = .ok config ∧
        ∀ other, other ≠ name → after.bytes? other = before.bytes? other) ∨
      ∃ left, (config.write name).run before = .error .config left ∧
        ∀ other, left.bytes? other = before.bytes? other) ∧
    ((∃ left, (config.write name).run before = .error .config left) ↔
      0x7FFFFFFFFFFFFFFF < config.retry.baseDelayMs.toNat ∨
        0x7FFFFFFFFFFFFFFF < config.retry.maxDelayMs.toNat) ∧
    ∃ after, (writeDefault name).run before = .ok () after ∧
      (∀ other, before.bytes? other ≠ none ∨ other ≠ name →
        after.bytes? other = before.bytes? other) ∧
      read after name
        = if before.bytes? name = none then .ok Config.default else read before name := by
  have unfit_iff : ¬config.Fits ↔ 0x7FFFFFFFFFFFFFFF < config.retry.baseDelayMs.toNat ∨
      0x7FFFFFFFFFFFFFFF < config.retry.maxDelayMs.toNat := by
    simp only [Fits, delayLimit]
    omega
  rw [← unfit_iff]
  by_cases fits : config.Fits
  · have written := run_write_of_fits fits before admitted
    refine ⟨.inl written, ?_, run_writeDefault_cases before admitted⟩
    obtain ⟨after, done, -⟩ := written
    rw [done]
    exact ⟨nofun, fun unfit => absurd fits unfit⟩
  · have failed := run_write_of_not_fits fits before name
    refine ⟨.inr ⟨before, failed, fun _ => rfl⟩, ?_, run_writeDefault_cases before admitted⟩
    exact ⟨fun _ => fits, fun _ => ⟨before, failed⟩⟩

/-- A folder with a file of bytes that are no text: a configuration without limit and with the
greatest delays that fit replaces them, one with a delay of one millisecond more leaves them. -/
theorem read_after_write_folio :
    Folder.admits "folio.toml" = true ∧
    ∃ before after left : Folder, before.bytes? "folio.toml" = some [0xFF] ∧
      (Config.write ⟨⟨none, 0x7FFFFFFFFFFFFFFF, 0x7FFFFFFFFFFFFFFF⟩⟩ "folio.toml").run before
        = .ok () after ∧
      read after "folio.toml" = .ok ⟨⟨none, 0x7FFFFFFFFFFFFFFF, 0x7FFFFFFFFFFFFFFF⟩⟩ ∧
      (Config.write ⟨⟨none, 0, 0x8000000000000000⟩⟩ "folio.toml").run before
        = .error .config left ∧
      left.bytes? "folio.toml" = some [0xFF] := by
  have admitted : Folder.admits "folio.toml" = true := by decide
  let before : Folder := Folder.empty.put "folio.toml" [0xFF]
  have held : before.bytes? "folio.toml" = some [0xFF] :=
    (Folder.bytes?_put _ _ _ _).trans (if_pos rfl)
  obtain ⟨written, fits, -⟩ :=
    read_after_write ⟨⟨none, 0x7FFFFFFFFFFFFFFF, 0x7FFFFFFFFFFFFFFF⟩⟩ before admitted
  obtain ⟨refused, unfit, -⟩ := read_after_write ⟨⟨none, 0, 0x8000000000000000⟩⟩ before admitted
  obtain ⟨after, done, back, -⟩ | ⟨left, failed, -⟩ := written
  · obtain ⟨_, made, -⟩ | ⟨left, failed, same⟩ := refused
    · obtain ⟨left, failed⟩ := unfit.2 (by decide)
      cases made.symm.trans failed
    · exact ⟨admitted, before, after, left, held, done, back, failed, (same _).trans held⟩
  · exact absurd (fits.1 ⟨left, failed⟩) (by decide)

end Config

end DocStore
