import EntryTrace.Source.Error
import EntryTrace.Source.Tree

/-!
# The grammar of source text

Each part of the grammar is a `Reader`: it takes tokens from the front and answers the tree they
form, or the first error. An error is on the line of the token that does not fit, and on the
line of the last token where the text ends too early.
-/

namespace EntryTrace.Source

/-- What does not change while tokens are taken. -/
structure Extent where
  /-- The line of the last token, 1 if there is none. -/
  endLine : Nat
  /-- The number of all tokens; nothing in the text repeats more often. -/
  size : Nat

def Extent.of (tokens : List Located) : Extent :=
  ⟨(tokens.getLast?.map Located.line).getD 1, tokens.length⟩

/-- Takes tokens from the front. -/
abbrev Reader := ReaderT Extent (StateT (List Located) (Except SourceError))

namespace Reader

variable {α σ : Type}

def fail (line : Nat) (cause : Cause) : Reader α := fun _ _ => .error ⟨line, cause⟩

/-- The line of the next token. -/
def line : Reader Nat := fun extent tokens =>
  match tokens with
  | [] => .ok (extent.endLine, tokens)
  | t :: _ => .ok (t.line, tokens)

/-- The next token, which stays. -/
def peek? : Reader (Option Token) := fun _ tokens =>
  .ok (tokens.head?.map Located.token, tokens)

/-- Takes one token and answers what `accept` makes of it. -/
def take (expected : Expected) (accept : Token → Except GrammarCause α) : Reader α :=
  fun extent tokens =>
    match tokens with
    | [] => .error ⟨extent.endLine, .grammar (.unexpectedEnd expected)⟩
    | t :: rest =>
      match accept t.token with
      | .ok a => .ok (a, rest)
      | .error cause => .error ⟨t.line, .grammar cause⟩

/-- Takes this very token. -/
def expect (token : Token) : Reader Unit :=
  take (.token token) fun found =>
    if found = token then .ok () else .error (.unexpected (.token token) found)

/-- Takes this very token if it comes next. -/
def eat (token : Token) : Reader Bool := fun _ tokens =>
  match tokens with
  | [] => .ok (false, tokens)
  | t :: rest => if t.token = token then .ok (true, rest) else .ok (false, tokens)

def word (expected : Expected) : Reader String :=
  take expected fun
    | .word name => .ok name
    | found => .error (.unexpected expected found)

/-- Repeats `round`, at most so many times, until it answers on the right. -/
def rounds (round : σ → Reader (σ ⊕ α)) : Nat → σ → Reader α
  | 0, _ => fun extent _ => .error ⟨extent.endLine, .grammar .trailingInput⟩
  | n + 1, s => do
    match ← round s with
    | .inl s => rounds round n s
    | .inr a => pure a

/-- Repeats `round` until it answers on the right. Each round that answers on the left takes a
token, so the number of all tokens bounds them. -/
def iterate (round : σ → Reader (σ ⊕ α)) (s : σ) : Reader α := fun extent =>
  rounds round (extent.size + 1) s extent

end Reader

/-- The number that the text of an entity of this kind carries: decimal digits after the label,
worth less than 2^64. Leading zeros do not count. -/
def entityIndex? (kind : Kind) (name : String) : Option Nat :=
  match kind.label.toList.isPrefixOf? name.toList with
  | none => none
  | some digits =>
    if digits.isEmpty || !digits.all Char.isDigit then none
    else
      let index := digits.foldl (fun n c => n * 10 + (c.toNat - '0'.toNat)) 0
      if index < UInt64.size then some index else none

namespace Reader

variable {α : Type}

def entity (kind : Kind) : Reader Nat :=
  take (.entity kind) fun
    | .word name =>
      match entityIndex? kind name with
      | some index => .ok index
      | none => .error (.unexpected (.entity kind) (.word name))
    | found => .error (.unexpected (.entity kind) found)

def stringLiteral : Reader String :=
  take .stringLiteral fun
    | .str s => .ok s
    | found => .error (.unexpected .stringLiteral found)

def integerLiteral : Reader Int :=
  take .integerLiteral fun
    | .int n => .ok n
    | found => .error (.unexpected .integerLiteral found)

def valueType : Reader ValueType :=
  take .type fun
    | .word name =>
      match ValueType.ofName? name with
      | some type => .ok type
      | none => .error (.unknownType name)
    | found => .error (.unexpected .type found)

/-- Items between parentheses with commas between them. -/
def parenthesized (item : Reader α) : Reader (List α) := do
  expect .openParen
  if ← eat .closeParen then
    pure []
  else
    iterate (fun items => do
      let items := (← item) :: items
      if ← eat .closeParen then
        pure (.inr items.reverse)
      else
        expect .comma
        pure (.inl items)) []

def operand : Reader OperandTree :=
  take .operand fun
    | .word name =>
      match entityIndex? .str name, entityIndex? .value name with
      | some index, _ => .ok (.str index)
      | none, some index => .ok (.value index)
      | none, none => .error (.unexpected .valueOrString (.word name))
    | found => .error (.unexpected .operand found)

/-- Does an operand come next? -/
def atOperand : Reader Bool := do
  match ← peek? with
  | some (.word name) =>
    pure ((entityIndex? .value name).isSome || (entityIndex? .str name).isSome)
  | _ => pure false

def target : Reader TargetTree := do
  let block ← entity .block
  let args ← parenthesized operand
  pure ⟨block, args⟩

/-- An operator and its operands. -/
def operation : Reader OpTree := do
  let line ← line
  let mnemonic ← word .operator
  match mnemonic with
  | "nop" => pure .nop
  | "i32.const" => .const32 <$> integerLiteral
  | "i64.const" => .const64 <$> integerLiteral
  | "call" =>
    let callee ← entity .func
    let args ← parenthesized operand
    pure (.call callee args)
  | other =>
    match BinaryOp.ofMnemonic? other with
    | some op =>
      let left ← operand
      expect .comma
      let right ← operand
      pure (.binary op left right)
    | none => fail line (.grammar (.unknownOperator other))

/-- Operands with commas between them, possibly none, that nothing closes. -/
def bareOperands : Reader (List OperandTree) := do
  if ← atOperand then
    iterate (fun values => do
      let values := (← operand) :: values
      if ← eat .comma then pure (.inl values) else pure (.inr values.reverse)) []
  else
    pure []

/-- What follows the first word of a terminator, which is on line `line`. -/
def terminator (line : Nat) (keyword : String) : Reader TermTree :=
  match keyword with
  | "br" => .jump <$> target
  | "if" => do
    let cond ← operand
    expect .comma
    let onTrue ← target
    expect .comma
    let onFalse ← target
    pure (.branch cond onTrue onFalse)
  | "return" => .ret <$> bareOperands
  | "unreachable" => pure .unreachable
  | other => fail line (.grammar (.unexpected .instOrTerminator (.word other)))

def blockParam : Reader (Nat × ValueType) := do
  let name ← entity .value
  expect .colon
  let type ← valueType
  pure (name, type)

/-- The instructions of a block and its terminator, with the line that one is on. -/
def blockInside : Reader (List InstTree × TermTree × Nat) :=
  iterate (fun insts => do
    let line ← line
    let keyword ← word .instOrTerminator
    match entityIndex? .value keyword with
    | some result =>
      expect .equals
      let op ← operation
      pure (.inl (⟨line, result, op⟩ :: insts))
    | none =>
      let term ← terminator line keyword
      pure (.inr (insts.reverse, term, line))) []

def block : Reader BlockTree := do
  let line ← line
  let name ← entity .block
  let params ← parenthesized blockParam
  expect .colon
  let (insts, term, termLine) ← blockInside
  pure { line, name, params, insts, term, termLine }

/-- Blocks up to a closing brace. -/
def blocks : Reader (List BlockTree) :=
  iterate (fun acc => do
    if ← eat .closeBrace then pure (.inr acc.reverse) else pure (.inl ((← block) :: acc))) []

/-- What follows the entity of a function, which is on line `line`. -/
def func (line : Nat) : Reader FuncTree := do
  expect .equals
  let kindLine ← Reader.line
  let kind ← word .importOrFunc
  let name ← stringLiteral
  expect .colon
  let signature ← entity .signature
  match kind with
  | "import" => pure { line, name, signature, blocks? := none }
  | "func" =>
    expect .openBrace
    let blocks ← blocks
    if blocks.isEmpty then
      fail line (.grammar (.noBlocks name))
    else
      pure { line, name, signature, blocks? := some blocks }
  | other => fail kindLine (.grammar (.unexpected .importOrFunc (.word other)))

/-- What follows the entity of a signature, which is on line `line`. -/
def funcType (line : Nat) : Reader FuncType := do
  expect .equals
  let params ← parenthesized valueType
  expect .arrow
  let returns ← parenthesized valueType
  if returns.length > 1 then
    fail line (.typing .tooManyReturns)
  else
    pure { params, returns }

/-- Fails unless an entity has the number that comes next in its table. -/
def checkNumber (line : Nat) (kind : Kind) (found size : Nat) (name : String) : Reader Unit :=
  if found = size then pure ()
  else fail line (.grammar (.unexpected (.numbered kind size) (.word name)))

/-- One item of a module, added to the items before it. -/
def item (tree : ModuleTree) : Reader ModuleTree := do
  let line ← line
  let name ← word .moduleItem
  if let some index := entityIndex? .signature name then
    checkNumber line .signature index tree.types.size name
    let type ← funcType line
    pure { tree with types := tree.types.push type }
  else if let some index := entityIndex? .str name then
    checkNumber line .str index tree.strings.size name
    expect .equals
    let s ← stringLiteral
    pure { tree with strings := tree.strings.push s }
  else if let some index := entityIndex? .func name then
    checkNumber line .func index tree.funcs.size name
    let func ← func line
    pure { tree with funcs := tree.funcs.push func }
  else
    fail line (.grammar (.unexpected .moduleItem (.word name)))

/-- A module and nothing after it. -/
def module : Reader ModuleTree := do
  expect (.word "module")
  expect .openBrace
  let tree ← iterate (fun tree => do
    if ← eat .closeBrace then pure (.inr tree) else pure (.inl (← item tree))) {}
  match ← peek? with
  | none => pure tree
  | some _ => fail (← line) (.grammar .trailingInput)

end Reader

/-- The tree that the tokens form. -/
def parse (tokens : List Located) : Except SourceError ModuleTree :=
  (Reader.module (Extent.of tokens) tokens).map Prod.fst

end EntryTrace.Source
