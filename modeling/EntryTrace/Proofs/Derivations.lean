import Mathlib
import EntryTrace.Source.Lexer
import EntryTrace.Source.Tree

/-!
# The grammar of source text as relations

Which tokens form which tree, said without a reader. Each relation is a rule of the grammar, its
constructors are the alternatives of the rule, and the tokens of a derivation are those of its
parts one after the other. Trees keep the lines on which some of their parts start.
-/

namespace EntryTrace.Source.Grammar

/-- The word names the entity of this kind and number: decimal digits after the label, worth less
than 2^64. Zeros in front do not count. -/
def Names (kind : Kind) (index : Nat) (word : String) : Prop :=
  ∃ digits : List Char, digits ≠ [] ∧ (∀ c ∈ digits, c.isDigit = true) ∧
    word = kind.label ++ String.ofList digits ∧
      index = Nat.ofDigits 10 (digits.reverse.map digitValue) ∧ index < 2 ^ 64

/-- Which tokens form which tree. -/
abbrev Rule (α : Type) := List Located → α → Prop

section Lists

variable {α : Type}

/-- Any number of items one after the other. -/
inductive Many (item : Rule α) : Rule (List α)
  | nil : Many item [] []
  | cons {ts us : List Located} {a : α} {as : List α} (head : item ts a) (tail : Many item us as) :
    Many item (ts ++ us) (a :: as)

/-- Items with a comma between any two; at least one. -/
inductive CommaSeparated (item : Rule α) : Rule (List α)
  | one {ts : List Located} {a : α} (head : item ts a) : CommaSeparated item ts [a]
  | cons {ts us : List Located} {line : Nat} {a : α} {as : List α} (head : item ts a)
    (tail : CommaSeparated item us as) : CommaSeparated item (ts ++ ⟨.comma, line⟩ :: us) (a :: as)

/-- Items between parentheses with a comma between any two; possibly none. -/
inductive Parenthesized (item : Rule α) : Rule (List α)
  | none {line line' : Nat} : Parenthesized item [⟨.openParen, line⟩, ⟨.closeParen, line'⟩] []
  | some {ts : List Located} {line line' : Nat} {as : List α} (items : CommaSeparated item ts as) :
    Parenthesized item (⟨.openParen, line⟩ :: (ts ++ [⟨.closeParen, line'⟩])) as

end Lists

inductive TypeName : Rule ValueType
  | intro {line : Nat} (type : ValueType) : TypeName [⟨.word type.name, line⟩] type

inductive Operand : Rule OperandTree
  | value {name : String} {line index : Nat} (h : Names .value index name) :
    Operand [⟨.word name, line⟩] (.value index)
  | str {name : String} {line index : Nat} (h : Names .str index name) :
    Operand [⟨.word name, line⟩] (.str index)

inductive Target : Rule TargetTree
  | intro {name : String} {line index : Nat} {ts : List Located} {args : List OperandTree}
    (hname : Names .block index name) (hargs : Parenthesized Operand ts args) :
    Target (⟨.word name, line⟩ :: ts) ⟨index, args⟩

/-- An operator with its operands. -/
inductive Operation : Rule OpTree
  | nop {line : Nat} : Operation [⟨.word "nop", line⟩] .nop
  | const32 {line line' : Nat} (n : Int) :
    Operation [⟨.word "i32.const", line⟩, ⟨.int n, line'⟩] (.const32 n)
  | const64 {line line' : Nat} (n : Int) :
    Operation [⟨.word "i64.const", line⟩, ⟨.int n, line'⟩] (.const64 n)
  | binary {line line' : Nat} {ts us : List Located} {left right : OperandTree} (op : BinaryOp)
    (hleft : Operand ts left) (hright : Operand us right) :
    Operation (⟨.word op.mnemonic, line⟩ :: (ts ++ ⟨.comma, line'⟩ :: us)) (.binary op left right)
  | call {name : String} {line line' callee : Nat} {ts : List Located} {args : List OperandTree}
    (hname : Names .func callee name) (hargs : Parenthesized Operand ts args) :
    Operation (⟨.word "call", line⟩ :: ⟨.word name, line'⟩ :: ts) (.call callee args)

/-- An instruction, on the line of its result. -/
inductive Inst : Rule InstTree
  | intro {name : String} {line line' result : Nat} {ts : List Located} {op : OpTree}
    (hname : Names .value result name) (hop : Operation ts op) :
    Inst (⟨.word name, line⟩ :: ⟨.equals, line'⟩ :: ts) ⟨line, result, op⟩

/-- A terminator that starts on line `line`. -/
inductive Terminator (line : Nat) : Rule TermTree
  | jump {ts : List Located} {target : TargetTree} (h : Target ts target) :
    Terminator line (⟨.word "br", line⟩ :: ts) (.jump target)
  | branch {ts us vs : List Located} {line' line'' : Nat} {cond : OperandTree}
    {onTrue onFalse : TargetTree} (hcond : Operand ts cond) (htrue : Target us onTrue)
    (hfalse : Target vs onFalse) :
    Terminator line (⟨.word "if", line⟩ :: (ts ++ ⟨.comma, line'⟩ :: (us ++ ⟨.comma, line''⟩ :: vs)))
      (.branch cond onTrue onFalse)
  | retNone : Terminator line [⟨.word "return", line⟩] (.ret [])
  | ret {ts : List Located} {values : List OperandTree} (h : CommaSeparated Operand ts values) :
    Terminator line (⟨.word "return", line⟩ :: ts) (.ret values)
  | unreachable : Terminator line [⟨.word "unreachable", line⟩] .unreachable

inductive BlockParam : Rule (Nat × ValueType)
  | intro {name : String} {line line' index : Nat} {ts : List Located} {type : ValueType}
    (hname : Names .value index name) (htype : TypeName ts type) :
    BlockParam (⟨.word name, line⟩ :: ⟨.colon, line'⟩ :: ts) (index, type)

/-- A block, on the line of its name. -/
inductive Block : Rule BlockTree
  | intro {word : String} {line line' name termLine : Nat} {ts us vs : List Located}
    {params : List (Nat × ValueType)} {insts : List InstTree} {term : TermTree}
    (hname : Names .block name word) (hparams : Parenthesized BlockParam ts params)
    (hinsts : Many Inst us insts) (hterm : Terminator termLine vs term) :
    Block (⟨.word word, line⟩ :: (ts ++ ⟨.colon, line'⟩ :: (us ++ vs)))
      { line, name, params, insts, term, termLine }

/-! ### Items of a module -/

/-- The type of a signature, which has at most one result. -/
inductive Signature : Rule FuncType
  | intro {ts us : List Located} {line : Nat} {params returns : List ValueType}
    (hparams : Parenthesized TypeName ts params) (hreturns : Parenthesized TypeName us returns)
    (hone : returns.length ≤ 1) : Signature (ts ++ ⟨.arrow, line⟩ :: us) ⟨params, returns⟩

/-- A function whose entity is on line `line`. It is imported or has at least one block. -/
inductive Function (line : Nat) : Rule FuncTree
  | imported {name word : String} {line₁ line₂ line₃ line₄ signature : Nat}
    (hsignature : Names .signature signature word) :
    Function line [⟨.word "import", line₁⟩, ⟨.str name, line₂⟩, ⟨.colon, line₃⟩, ⟨.word word, line₄⟩]
      { line, name, signature, blocks? := none }
  | defined {name word : String} {line₁ line₂ line₃ line₄ line₅ line₆ signature : Nat}
    {ts : List Located} {blocks : List BlockTree} (hsignature : Names .signature signature word)
    (hblocks : Many Block ts blocks) (hsome : blocks ≠ []) :
    Function line (⟨.word "func", line₁⟩ :: ⟨.str name, line₂⟩ :: ⟨.colon, line₃⟩ ::
        ⟨.word word, line₄⟩ :: ⟨.openBrace, line₅⟩ :: (ts ++ [⟨.closeBrace, line₆⟩]))
      { line, name, signature, blocks? := some blocks }

/-- An item of a module with its number. -/
inductive ItemTree
  | type (index : Nat) (type : FuncType)
  | str (index : Nat) (s : String)
  | func (index : Nat) (func : FuncTree)

namespace ItemTree

def type? : ItemTree → Option (Nat × FuncType)
  | .type index t => some (index, t)
  | _ => none

def str? : ItemTree → Option (Nat × String)
  | .str index s => some (index, s)
  | _ => none

def func? : ItemTree → Option (Nat × FuncTree)
  | .func index f => some (index, f)
  | _ => none

end ItemTree

inductive Item : Rule ItemTree
  | type {name : String} {line line' index : Nat} {ts : List Located} {type : FuncType}
    (hname : Names .signature index name) (htype : Signature ts type) :
    Item (⟨.word name, line⟩ :: ⟨.equals, line'⟩ :: ts) (.type index type)
  | str {name s : String} {line line' line'' index : Nat} (hname : Names .str index name) :
    Item [⟨.word name, line⟩, ⟨.equals, line'⟩, ⟨.str s, line''⟩] (.str index s)
  | func {name : String} {line line' index : Nat} {ts : List Located} {func : FuncTree}
    (hname : Names .func index name) (hfunc : Function line ts func) :
    Item (⟨.word name, line⟩ :: ⟨.equals, line'⟩ :: ts) (.func index func)

/-- The things have these numbers, which go up from 0. -/
structure Numbered {α : Type} (entries : List (Nat × α)) (things : List α) : Prop where
  numbers : entries.map Prod.fst = List.range entries.length
  things : entries.map Prod.snd = things

/-- A module. In each of the three kinds its items are numbered from 0, in order. -/
inductive Module : Rule ModuleTree
  | intro {ts : List Located} {line₁ line₂ line₃ : Nat} {items : List ItemTree} {tree : ModuleTree}
    (hitems : Many Item ts items)
    (htypes : Numbered (items.filterMap ItemTree.type?) tree.types.toList)
    (hstrings : Numbered (items.filterMap ItemTree.str?) tree.strings.toList)
    (hfuncs : Numbered (items.filterMap ItemTree.func?) tree.funcs.toList) :
    Module (⟨.word "module", line₁⟩ :: ⟨.openBrace, line₂⟩ :: (ts ++ [⟨.closeBrace, line₃⟩])) tree

end EntryTrace.Source.Grammar
