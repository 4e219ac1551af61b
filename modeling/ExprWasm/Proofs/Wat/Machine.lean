/-! A stack machine that runs lines of instructions.

A line is understood from its text alone. What constants, locals, mnemonics, calls and the truth of
a value mean is left open: an interpretation gives it, with effects in any monad, so that the order
of what happens can be observed. The block of a conditional reaches to its matching `end`, with the
matching `else` in between. The machine stops without a stack where operands are missing, where a
block is not closed and at a line that it does not understand. -/

set_option autoImplicit false

namespace ExprWasm.Wat

universe u v

inductive Instruction where
  | constant (numeral : String)
  | fetch (name : String)
  | operation (mnemonic : String) (operands : Nat)
  | call (callee : String)
  | conditional
  | otherwise
  | finish
  deriving DecidableEq

def after? (opening line : String) : Option String :=
  (opening.toList.isPrefixOf? line.toList).map String.ofList

def unaryMnemonics : List String :=
  ["f32.sqrt", "f32.ceil", "f32.floor", "f32.trunc", "f32.nearest", "f32.abs", "f32.neg"]

def binaryMnemonics : List String :=
  ["f32.add", "f32.sub", "f32.mul", "f32.div", "i32.or", "i32.and", "f32.lt", "f32.gt", "f32.eq",
    "f32.ne"]

def operandCount? (mnemonic : String) : Option Nat :=
  if mnemonic ∈ unaryMnemonics then some 1
  else if mnemonic ∈ binaryMnemonics then some 2
  else none

def decodeWord (line : String) : Option Instruction :=
  if line = "if (result f32)" then some .conditional
  else if line = "else" then some .otherwise
  else if line = "end" then some .finish
  else (operandCount? line).map (.operation line)

def decode (line : String) : Option Instruction :=
  match after? "f32.const " line, after? "local.get $" line, after? "call $" line with
  | some numeral, _, _ => some (.constant numeral)
  | _, some name, _ => some (.fetch name)
  | _, _, some callee => some (.call callee)
  | none, none, none => decodeWord line

theorem after?_append (opening rest : String) : after? opening (opening ++ rest) = some rest := by
  have drops (characters : List Char) :
      characters.isPrefixOf? (characters ++ rest.toList) = some rest.toList := by
    induction characters with
    | nil => rfl
    | cons c characters inductionHypothesis =>
        change (if c == c then characters.isPrefixOf? (characters ++ rest.toList) else none) = _
        rw [if_pos (beq_self_eq_true c)]
        exact inductionHypothesis
  rw [after?, String.toList_append, drops, Option.map_some, String.ofList_toList]

theorem decode_constant (numeral : String) :
    decode ("f32.const " ++ numeral) = some (.constant numeral) := by
  rw [decode, after?_append]

theorem decode_fetch (name : String) :
    decode ("local.get $" ++ name) = some (.fetch name) := by
  have other : after? "f32.const " ("local.get $" ++ name) = none := by
    rw [after?, String.toList_append]
    rfl
  rw [decode, after?_append, other]

theorem decode_call (callee : String) :
    decode ("call $" ++ callee) = some (.call callee) := by
  have first : after? "f32.const " ("call $" ++ callee) = none := by
    rw [after?, String.toList_append]
    rfl
  have second : after? "local.get $" ("call $" ++ callee) = none := by
    rw [after?, String.toList_append]
    rfl
  rw [decode, after?_append, first, second]

theorem decode_operation
    {mnemonic : String} {operands : Nat} (counted : operandCount? mnemonic = some operands) :
    decode mnemonic = some (.operation mnemonic operands) := by
  have unary : ∀ mnemonic ∈ unaryMnemonics, decode mnemonic = some (.operation mnemonic 1) := by
    decide
  have binary : ∀ mnemonic ∈ binaryMnemonics, decode mnemonic = some (.operation mnemonic 2) := by
    decide
  unfold operandCount? at counted
  split at counted
  · rename_i listed
    cases counted
    exact unary mnemonic listed
  · split at counted
    · rename_i listed
      cases counted
      exact binary mnemonic listed
    · cases counted

theorem decode_conditional : decode "if (result f32)" = some .conditional := by decide

theorem decode_otherwise : decode "else" = some .otherwise := by decide

theorem decode_finish : decode "end" = some .finish := by decide

/-! ### Blocks -/

namespace Instruction

def isStraight : Instruction → Bool
  | conditional | otherwise | finish => false
  | _ => true

def depthAfter (depth : Nat) : Option Instruction → Nat
  | some conditional => depth + 1
  | some finish => depth - 1
  | _ => depth

end Instruction

/-- The lines before and after the first marker that belongs to the surrounding block, when `depth`
blocks are open inside it. -/
def matching? (marker : Instruction) (depth : Nat) : List String → Option (List String × List String)
  | [] => none
  | line :: rest =>
      if depth = 0 ∧ (decode line = some .otherwise ∨ decode line = some .finish) then
        if decode line = some marker then some ([], rest) else none
      else
        (matching? marker (Instruction.depthAfter depth (decode line)) rest).map
          fun found => (line :: found.1, found.2)

theorem length_of_matching?
    {marker : Instruction} {depth : Nat} {lines before after : List String}
    (found : matching? marker depth lines = some (before, after)) :
    before.length + after.length < lines.length := by
  induction lines generalizing depth before with
  | nil => cases found
  | cons line rest inductionHypothesis =>
      rw [matching?] at found
      split at found
      · split at found
        · cases found
          exact Nat.lt_succ_of_le (Nat.le_of_eq (Nat.zero_add _))
        · cases found
      · obtain ⟨⟨inside, remaining⟩, later, same⟩ := Option.map_eq_some_iff.mp found
        cases same
        have shorter := inductionHypothesis later
        change inside.length + 1 + remaining.length < rest.length + 1
        change inside.length + remaining.length < rest.length at shorter
        omega

structure Block where
  whenTrue : List String
  whenFalse : List String
  after : List String

def Block.branch (block : Block) (truth : Bool) : List String :=
  if truth then block.whenTrue else block.whenFalse

def block? (lines : List String) : Option Block :=
  (matching? .otherwise 0 lines).bind fun first =>
    (matching? .finish 0 first.2).map fun second => ⟨first.1, second.1, second.2⟩

theorem length_of_block?
    {lines : List String} {block : Block} (found : block? lines = some block) (truth : Bool) :
    (block.branch truth).length < lines.length ∧ block.after.length < lines.length := by
  obtain ⟨first, matched, later⟩ := Option.bind_eq_some_iff.mp found
  obtain ⟨second, closed, same⟩ := Option.map_eq_some_iff.mp later
  have outer := length_of_matching? matched
  have inner := length_of_matching? closed
  subst same
  unfold Block.branch
  cases truth <;> simp only [if_true, Bool.false_eq_true, if_false] <;> omega

/-! ### Lines that close what they open -/

/-- A search for a marker passes over the lines. -/
def Balanced (texts : List String) : Prop :=
  ∀ marker depth rest, matching? marker depth (texts ++ rest) =
    (matching? marker depth rest).map fun found => (texts ++ found.1, found.2)

namespace Balanced

theorem nil : Balanced [] := by
  intro marker depth rest
  rw [List.nil_append]
  cases matching? marker depth rest with
  | none => rfl
  | some found => rfl

theorem append {first second : List String} (before : Balanced first) (after : Balanced second) :
    Balanced (first ++ second) := by
  intro marker depth rest
  rw [List.append_assoc, before, after, Option.map_map]
  simp only [Function.comp_def, List.append_assoc]

theorem straight
    {line : String} {instruction : Instruction} (decoded : decode line = some instruction)
    (plain : instruction.isStraight = true) : Balanced [line] := by
  intro marker depth rest
  rw [List.singleton_append, matching?, decoded]
  cases instruction with
  | conditional => cases plain
  | otherwise => cases plain
  | finish => cases plain
  | _ => simp [Instruction.depthAfter]

theorem conditional
    {whenTrue whenFalse : List String} (first : Balanced whenTrue) (second : Balanced whenFalse) :
    Balanced ("if (result f32)" :: (whenTrue ++ "else" :: (whenFalse ++ ["end"]))) := by
  intro marker depth rest
  simp only [List.cons_append, List.append_assoc, List.nil_append]
  rw [matching?, decode_conditional]
  simp only [reduceCtorEq, Option.some.injEq, or_self, and_false, if_false, Instruction.depthAfter]
  rw [first, matching?, decode_otherwise]
  simp only [Nat.add_eq_zero_iff, Nat.succ_ne_self, and_false, false_and, if_false,
    Instruction.depthAfter]
  rw [second, matching?, decode_finish]
  simp only [Nat.add_eq_zero_iff, Nat.succ_ne_self, and_false, false_and, if_false,
    Instruction.depthAfter, Nat.add_sub_cancel]
  cases matching? marker depth rest with
  | none => rfl
  | some found => simp

end Balanced

theorem block?_of_balanced
    {whenTrue whenFalse : List String} (first : Balanced whenTrue) (second : Balanced whenFalse)
    (rest : List String) :
    block? (whenTrue ++ "else" :: (whenFalse ++ "end" :: rest)) =
      some ⟨whenTrue, whenFalse, rest⟩ := by
  have upper : matching? .otherwise 0 ("else" :: (whenFalse ++ "end" :: rest)) =
      some ([], whenFalse ++ "end" :: rest) := by
    simp [matching?, decode_otherwise]
  have lower : matching? .finish 0 ("end" :: rest) = some ([], rest) := by
    simp [matching?, decode_finish]
  rw [block?, first, upper]
  simp [second .finish 0, lower]

/-! ### Running -/

/-- The meaning of all that a line can name. Operands are given in the order in which they were
pushed. -/
structure Interpretation (M : Type u → Type v) (V : Type u) where
  constant : String → M V
  fetch : String → M V
  operation : String → List V → M V
  call : String → List V → M V
  arity : String → Nat
  truth : V → Bool

/-- The topmost values of a stack, the last one pushed at the end, and what is below them. -/
def pop {V : Type u} (count : Nat) (stack : List V) : Option (List V × List V) :=
  if count ≤ stack.length then some ((stack.take count).reverse, stack.drop count) else none

namespace Interpretation

variable {M : Type u → Type v} {V : Type u}

def produce? (interpretation : Interpretation M V) (stack : List V) :
    Instruction → Option (M V × List V)
  | .constant numeral => some (interpretation.constant numeral, stack)
  | .fetch name => some (interpretation.fetch name, stack)
  | .operation mnemonic operands =>
      (pop operands stack).map fun popped =>
        (interpretation.operation mnemonic popped.1, popped.2)
  | .call callee =>
      (pop (interpretation.arity callee) stack).map fun popped =>
        (interpretation.call callee popped.1, popped.2)
  | _ => none

variable [Monad M]

def run (interpretation : Interpretation M V) : List String → List V → M (Option (List V))
  | [], stack => pure (some stack)
  | line :: rest, stack =>
      match decode line, stack with
      | some .conditional, condition :: below =>
          match _found : block? rest with
          | none => pure none
          | some block => do
              match ← run interpretation (block.branch (interpretation.truth condition)) below with
              | none => pure none
              | some stack => run interpretation block.after stack
      | some instruction, stack =>
          match interpretation.produce? stack instruction with
          | none => pure none
          | some (value, below) => do
              let result ← value
              run interpretation rest (result :: below)
      | none, _ => pure none
termination_by lines => lines.length
decreasing_by
  · exact Nat.lt_succ_of_lt (length_of_block? _found _).1
  · exact Nat.lt_succ_of_lt (length_of_block? _found true).2
  · exact Nat.lt_succ_self _

theorem run_nil (interpretation : Interpretation M V) (stack : List V) :
    interpretation.run [] stack = pure (some stack) := by
  rw [run]

theorem run_straight
    (interpretation : Interpretation M V) {line : String} {instruction : Instruction}
    (decoded : decode line = some instruction) {stack below : List V} {value : M V}
    (produced : interpretation.produce? stack instruction = some (value, below))
    (rest : List String) :
    interpretation.run (line :: rest) stack =
      value >>= fun result => interpretation.run rest (result :: below) := by
  rw [run.eq_def]
  cases instruction with
  | conditional => cases produced
  | _ => simp only [decoded, produced]

theorem run_conditional
    (interpretation : Interpretation M V) {lines : List String} {block : Block}
    (found : block? lines = some block) (condition : V) (below : List V) :
    interpretation.run ("if (result f32)" :: lines) (condition :: below) =
      interpretation.run (block.branch (interpretation.truth condition)) below >>= fun reached =>
        match reached with
        | none => pure none
        | some stack => interpretation.run block.after stack := by
  rw [run.eq_def]
  simp only [decode_conditional]
  split
  · rename_i missing
    rw [found] at missing
    cases missing
  · rename_i other again
    rw [found] at again
    cases again
    rfl

end Interpretation

end ExprWasm.Wat
