import ExprWasm.Proofs.Command.Statuses
import ExprWasm.Proofs.Text.Unquoted

/-! The rows of a token listing.

A row is read from left to right: the kind up to the first blank, the lexeme up to the mark that
closes it, and the line in what is left. A lexeme can hold marks, blanks and even another line
number, but none of them ends it early. So a row belongs to one token only. Since all its characters
are printable, a listing has a line for each token. -/

set_option autoImplicit false

namespace ExprWasm.Token

open Number (Decimal)
open Text (Printable)

/-! ### Rows are read back -/

theorem Kind.ofName?_name (kind : Kind) : Kind.ofName? kind.name = some kind := by
  cases kind <;> decide

theorem Kind.name_unspaced (kind : Kind) : ∀ c ∈ kind.name.toList, decide (c ≠ ' ') = true := by
  cases kind <;> exact List.all_eq_true.mp rfl

namespace Lexed

def integerValue : List Char → Int
  | '-' :: digits => -(Decimal.digitsValue 0 digits : Int)
  | digits => Decimal.digitsValue 0 digits

def readLine (text : List Char) : Int :=
  integerValue (text.drop " (line ".toList.length).dropLast

def ofRow? (row : String) : Option Lexed := do
  let kind ← Kind.ofName? (String.ofList (row.toList.takeWhile (· ≠ ' ')))
  let (lexeme, rest) ← Text.unquote? ((row.toList.dropWhile (· ≠ ' ')).drop 1)
  return ⟨kind, lexeme, readLine rest⟩

theorem row_toList (token : Lexed) :
    token.row.toList =
      token.kind.name.toList ++ ' ' :: ((Text.quoted token.lexeme).toList ++
        (" (line ".toList ++ ((toString token.line).toList ++ [')']))) := by
  simp [row]

theorem integerValue_toString (value : Int) : integerValue (toString value).toList = value := by
  cases value with
  | ofNat value =>
      change integerValue (Nat.repr value).toList = _
      have digits := Decimal.toDigits_digits value
      rw [Nat.toList_repr]
      unfold integerValue
      split
      · rename_i rest signed
        rw [signed] at digits
        cases digits '-' (List.mem_cons_self ..)
      · exact congrArg Int.ofNat (Decimal.digitsValue_toDigits value)
  | negSucc value =>
      change integerValue ("-" ++ Nat.repr (value + 1)).toList = _
      rw [String.toList_append, Nat.toList_repr]
      exact congrArg (fun value : Nat => -(value : Int)) (Decimal.digitsValue_toDigits (value + 1))

theorem readLine_toString (line : Int) :
    readLine (" (line ".toList ++ ((toString line).toList ++ [')'])) = line := by
  rw [readLine, List.drop_left, List.dropLast_concat, integerValue_toString]

/-- The token of a row is found again. -/
theorem ofRow?_row (token : Lexed) : ofRow? token.row = some token := by
  have named : token.row.toList.takeWhile (· ≠ ' ') = token.kind.name.toList := by
    rw [row_toList, List.takeWhile_append_of_pos token.kind.name_unspaced]
    exact List.append_nil _
  have others : (token.row.toList.dropWhile (· ≠ ' ')).drop 1 =
      (Text.quoted token.lexeme).toList ++
        (" (line ".toList ++ ((toString token.line).toList ++ [')'])) := by
    rw [row_toList, List.dropWhile_append_of_pos token.kind.name_unspaced]
    rfl
  unfold ofRow?
  rw [named, others, String.ofList_toList, Kind.ofName?_name, Text.unquote?_quoted]
  change some (Lexed.mk token.kind token.lexeme (readLine _)) = some token
  rw [readLine_toString]

/-! ### Rows are single lines -/

theorem row_printable (token : Lexed) : Printable token.row := by
  have kind : Printable token.kind.name := by
    cases token.kind <;> exact Printable.of_all rfl
  have quoted := (kind.append (Printable.of_all rfl : Printable " ")).append
    (Text.quoted_printable token.lexeme)
  have located := (quoted.append (Printable.of_all rfl : Printable " (line ")).append
    (Text.integer_printable token.line)
  exact located.append (Printable.of_all rfl)

end Lexed

end ExprWasm.Token

namespace ExprWasm.Command

open Compile (Workspace)
open Source (cut)
open Text (linesOf)
open Token (Lexed Lexer)

/-! ### The listing that is printed -/

def listedTokens (size : Nat) (content : List UInt8) : List Lexed :=
  (Lexer.ofSource (cut size content)).listing.tokens

theorem printedLine_row (token : Lexed) : printedLine token.row = token.row ++ "\n" := by
  rw [printedLine, token.row_printable.withoutSequences]

theorem linesOf_rows (tokens : List Lexed) :
    linesOf (asLines (tokens.map Lexed.row)) = tokens.map Lexed.row := by
  have unbroken : ∀ row ∈ tokens.map Lexed.row, Text.Unbroken row := by
    intro row member
    obtain ⟨token, _, rfl⟩ := List.mem_map.mp member
    exact token.row_printable.unbroken
  have split := Text.linesOf_join unbroken ""
  rw [String.append_empty] at split
  exact split.trans (List.append_nil _)

theorem listTokens_output
    {request : Request} {before : Workspace} {content : List UInt8}
    (held : before.files.Holds request.input content) (size : Nat) :
    (listTokens request size before).output =
      asLines ((listedTokens size content).map Lexed.row) := by
  simp only [listTokens, Files.FileTree.read_eq_ok_iff.mpr held]
  cases failure : (Lexer.ofSource (cut size content)).listing.failure with
  | none => rfl
  | some failure => rfl

/-- A row has neither carriage return nor line feed, its lexeme is read back in spite of all
escapes, and so is the whole token; hence only the same token has the same row. A command line that
asks for the tokens of its source prints a line for each token and nothing else. -/
theorem tokenRows_faithful :
    (∀ token : Lexed, '\r' ∉ token.row.toList ∧ '\n' ∉ token.row.toList ∧
      Text.unquote? (Text.quoted token.lexeme).toList = some (token.lexeme, []) ∧
      Lexed.ofRow? token.row = some token) ∧
    (∀ token other : Lexed, token.row = other.row ↔
      token.kind = other.kind ∧ token.lexeme = other.lexeme ∧ token.line = other.line) ∧
    ∀ (words : List String) (size : Nat) (before : Workspace) (given : Given) (asked : Request),
      readWords {} words = .ok given → given.answer? = none →
      request before.files given = .ok asked → given.has .tokens = true →
      ∃ content report, before.files.Holds asked.input content ∧
        run words size before = .ok report ∧
        report.output =
          String.join ((listedTokens size content).map fun token => printedLine token.row) ∧
        linesOf report.output = (listedTokens size content).map Lexed.row := by
  refine ⟨fun token => ?_, fun token other => ⟨fun same => ?_, ?_⟩, ?_⟩
  · have printable := token.row_printable
    have lexeme := Text.unquote?_quoted token.lexeme []
    rw [List.append_nil] at lexeme
    exact ⟨printable.not_mem rfl, printable.not_mem rfl, lexeme, token.ofRow?_row⟩
  · have read := token.ofRow?_row
    rw [same, other.ofRow?_row] at read
    cases read
    exact ⟨rfl, rfl, rfl⟩
  · rintro ⟨kind, lexeme, line⟩
    rw [Lexed.row, Lexed.row, kind, lexeme, line]
  · intro words size before given asked read unanswered accepted listed
    rcases request_eq_ok accepted with ⟨file, content, _, status, rfl⟩
    have held : before.files.Holds (given.requestFor file).input content :=
      Files.FileTree.holds_of_status status
    have carried : carryOut (given.requestFor file) size before =
        listTokens (given.requestFor file) size before := if_pos listed
    refine ⟨content, carryOut (given.requestFor file) size before, held, ?_, ?_, ?_⟩
    · simp only [run, read, unanswered, accepted]
    · rw [carried, listTokens_output held, asLines, List.map_map]
      simp only [Function.comp_def, printedLine_row]
    · rw [carried, listTokens_output held, linesOf_rows]

/-- A directory with a source that holds nothing but an apostrophe. -/
def apostropheSource : Workspace :=
  { files := { entries := [(["q.ml"], .file [0x27])] }, assemblerAnswer := .timedOut }

/-- What the words `--tokens q.ml` give. -/
def tokensGiven : Given := ⟨[(.tokens, "")], ["q.ml"]⟩

/-- The mark changes for an apostrophe, and the end of the source has a row too. -/
theorem apostropheRow_faithful :
    readWords {} ["--tokens", "q.ml"] = .ok tokensGiven ∧ tokensGiven.answer? = none ∧
      request apostropheSource.files tokensGiven = .ok (tokensGiven.requestFor "q.ml") ∧
      tokensGiven.has .tokens = true ∧
      ∃ report, run ["--tokens", "q.ml"] 1 apostropheSource = .ok report ∧
        linesOf report.output = ["INVALID_CHAR \"'\" (line 1)", "EOF '' (line 1)"] := by
  have read : readWords {} ["--tokens", "q.ml"] = .ok tokensGiven := by
    unfold readWords
    unfold readWords
    rfl
  have accepted : request apostropheSource.files tokensGiven =
      .ok (tokensGiven.requestFor "q.ml") := rfl
  refine ⟨read, rfl, accepted, rfl, ?_⟩
  obtain ⟨content, report, held, reports, _, lines⟩ :=
    tokenRows_faithful.2.2 _ 1 _ _ _ read rfl accepted rfl
  have known : apostropheSource.files.Holds (tokensGiven.requestFor "q.ml").input [0x27] :=
    ⟨["q.ml"], rfl, rfl⟩
  have rows : (listedTokens 1 [0x27]).map Lexed.row =
      ["INVALID_CHAR \"'\" (line 1)", "EOF '' (line 1)"] := by
    decide +kernel
  rw [held.unique known, rows] at lines
  exact ⟨report, reports, lines⟩

end ExprWasm.Command
