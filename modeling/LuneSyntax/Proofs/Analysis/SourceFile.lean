import LuneSyntax.Analysis.Basic
import LuneSyntax.Proofs.Lexeme.WideLineEnds
import LuneSyntax.Proofs.Text.Utf8

/-!
# Sources read from files

The bytes of a file decide what is analyzed. If they encode a text, it is the text with line feeds
for all of its line ends, however it writes them. If they do not, nothing is reported but the place
where they stop to encode one.
-/

set_option autoImplicit false

namespace LuneSyntax

/-! ## Line ends -/

namespace LineBreak

/-- The text with a line feed in the place of every carriage return with a line feed behind it. -/
def narrow : List Char → List Char
  | [] => []
  | '\r' :: '\n' :: rest => '\n' :: narrow rest
  | character :: rest => character :: narrow rest

def feedReturns (text : List Char) : List Char :=
  text.map fun character => if character = '\r' then '\n' else character

def returnFeeds (text : List Char) : List Char :=
  text.map fun character => if character = '\n' then '\r' else character

/-- The three ways in which the lines of a text can be ended throughout. -/
inductive Version (text : List Char) : List Char → Prop where
  | lineFeeds : Version text text
  | pairs : Version text (widen text)
  | carriageReturns : Version text (returnFeeds text)

theorem normalize_eq_feedReturns (text : List Char) : normalize text = feedReturns (narrow text) := by
  fun_induction normalize text with
  | case1 => rfl
  | case2 rest ih =>
      rw [ih, narrow]
      rfl
  | case3 character rest unpaired ih =>
      rw [ih, narrow]
      · rfl
      · exact unpaired

theorem normalize_cons {character : Char} (other : character ≠ '\r') (rest : List Char) :
    normalize (character :: rest) = character :: normalize rest := by
  rw [normalize, if_neg other]
  intro after same
  exact absurd same other

theorem normalize_return {rest : List Char} (unpaired : '\n' ∉ rest.head?) :
    normalize ('\r' :: rest) = '\n' :: normalize rest := by
  rw [normalize, if_pos rfl]
  intro after _ same
  exact unpaired (by rw [same]; rfl)

theorem normalize_widen {text : List Char} (absent : '\r' ∉ text) :
    normalize (widen text) = text := by
  induction text with
  | nil => rfl
  | cons character text ih =>
      obtain ⟨other, others⟩ := not_or.mp (mt List.mem_cons.mpr absent)
      by_cases ends : character = '\n'
      · rw [ends, widen_lineFeed, normalize, ih others]
      · rw [widen_cons ends, normalize_cons (Ne.symm other), ih others]

theorem lineFeed_not_mem_returnFeeds (text : List Char) : '\n' ∉ returnFeeds text := by
  intro member
  obtain ⟨character, _, same⟩ := List.mem_map.mp member
  split at same
  · cases same
  · contradiction

theorem normalize_returnFeeds {text : List Char} (absent : '\r' ∉ text) :
    normalize (returnFeeds text) = text := by
  induction text with
  | nil => rfl
  | cons character text ih =>
      obtain ⟨other, others⟩ := not_or.mp (mt List.mem_cons.mpr absent)
      have behind := ih others
      by_cases ends : character = '\n'
      · have unpaired : '\n' ∉ (returnFeeds text).head? :=
          fun first => lineFeed_not_mem_returnFeeds text (List.mem_of_mem_head? first)
        rw [returnFeeds, List.map_cons, if_pos ends, ends]
        rw [← returnFeeds, normalize_return unpaired, behind]
      · rw [returnFeeds, List.map_cons, if_neg ends, ← returnFeeds,
          normalize_cons (Ne.symm other), behind]

theorem Version.normalize {text written : List Char} (version : Version text written)
    (absent : '\r' ∉ text) : normalize written = text := by
  cases version with
  | lineFeeds => exact normalize_of_not_mem absent
  | pairs => exact normalize_widen absent
  | carriageReturns => exact normalize_returnFeeds absent

end LineBreak

/-! ## Files -/

namespace Analysis

/-- The name under which the file at a path is analyzed. -/
def nameOf (path : String) : String :=
  String.ofList (Path.normalize path.toList)

/-- The report of a source as that of the file which holds it. -/
def ofText (options : Options) (name : String) (source : List Char) : Report FileFailure :=
  let report := ofSource options name source
  ⟨report.events, report.outcome.mapError .source⟩

section Files

variable {lookup : String → FileEntry} {path : String} {bytes : List UInt8}
  (found : lookup (nameOf path) = .file bytes)
include found

theorem ofFile_of_encode {text : List Char} (options : Options)
    (encoded : bytes = Utf8.encode text) :
    ofFile options lookup path = ofText options (nameOf path) (LineBreak.normalize text) := by
  have decoded := Utf8.decode_eq_ok_iff.mpr encoded
  rw [nameOf] at found
  simp only [ofFile, found, decoded, ofText, nameOf]
  cases (ofSource options (String.ofList (Path.normalize path.toList))
    (LineBreak.normalize text)).outcome <;> rfl

theorem ofFile_of_defect {defect : Utf8.Defect} (options : Options)
    (failed : Utf8.decode bytes = .error defect) :
    ofFile options lookup path = ⟨[], .error (.encoding defect)⟩ := by
  rw [nameOf] at found
  simp only [ofFile, found, failed]

/-- A file that encodes a text is analyzed as the text with line feeds at the ends of its lines, so
that all versions of a text are analyzed alike. Any other file is refused without an event, at the
end of the longest part in front that encodes a text. -/
theorem ofFile_of_bytes (options : Options) :
    (∀ text, bytes = Utf8.encode text →
      ofFile options lookup path =
        ofText options (nameOf path) (LineBreak.feedReturns (LineBreak.narrow text))) ∧
    (∀ text written, '\r' ∉ text → LineBreak.Version text written →
      bytes = Utf8.encode written →
        ofFile options lookup path = ofText options (nameOf path) text) ∧
    ((∀ text, bytes ≠ Utf8.encode text) → ∃ defect,
      ofFile options lookup path = ⟨[], .error (.encoding defect)⟩ ∧
        IsGreatest {length | ∃ text, Utf8.encode text <+: bytes ∧
          (Utf8.encode text).length = length} defect.offset) := by
  refine ⟨?_, ?_, ?_⟩
  · intro text encoded
    rw [ofFile_of_encode found options encoded, LineBreak.normalize_eq_feedReturns]
  · intro text written absent version encoded
    rw [ofFile_of_encode found options encoded, version.normalize absent]
  · intro never
    obtain ⟨defect, failed⟩ := Utf8.decode_eq_error_iff.mpr never
    exact ⟨defect, ofFile_of_defect found options failed, Utf8.isGreatest_offset_of_decode failed⟩

end Files

/-- A mark of byte order with line ends of two kinds behind it, a text that ends its lines by
returns, and a character that is cut off. -/
theorem ofFile_of_bytes_mixed :
    let mixed := ['\ufeff', '1', '\r', '\n', '\r', '2']
    let cut : List UInt8 := [0x31, 0xF4, 0x8F]
    let tree := ((FileTree.empty.insert ['m'] (.file (Utf8.encode mixed))).insert ['r']
      (.file (Utf8.encode ['1', '\r', '\r']))).insert ['c'] (.file cut)
    tree.lookup (nameOf "./m") = .file (Utf8.encode mixed) ∧
      tree.lookup (nameOf "r") = .file (Utf8.encode ['1', '\r', '\r']) ∧
      tree.lookup (nameOf "c") = .file cut ∧
      ofFile {} tree.lookup "./m" = ofText {} (nameOf "./m") ['\ufeff', '1', '\n', '\n', '2'] ∧
      ofFile {} tree.lookup "r" = ofText {} (nameOf "r") ['1', '\n', '\n'] ∧
      (∀ text, cut ≠ Utf8.encode text) ∧ ∃ defect,
        ofFile {} tree.lookup "c" = ⟨[], .error (.encoding defect)⟩ ∧
          IsGreatest {length | ∃ text, Utf8.encode text <+: cut ∧
            (Utf8.encode text).length = length} defect.offset := by
  intro mixed cut tree
  have first : tree.lookup (nameOf "./m") = .file (Utf8.encode mixed) := by decide +kernel
  have second : tree.lookup (nameOf "r") = .file (Utf8.encode ['1', '\r', '\r']) := by
    decide +kernel
  have third : tree.lookup (nameOf "c") = .file cut := by decide +kernel
  have failed : Utf8.decode cut = .error ⟨1, 2, 0xF4, .endOfData⟩ := by cbv
  have never := Utf8.decode_eq_error_iff.mp ⟨_, failed⟩
  refine ⟨first, second, third, ?_, ?_, never, ?_⟩
  · exact (ofFile_of_bytes first {}).1 mixed rfl
  · exact (ofFile_of_bytes second {}).2.1 ['1', '\n', '\n'] _ (by decide) .carriageReturns rfl
  · exact (ofFile_of_bytes third {}).2.2 never

end Analysis

end LuneSyntax
