import EntryTrace.Print

/-!
# Tagging helpers

A helper is a function with a body whose name starts with `helper_`. Tagging makes each helper
report itself when it is entered: a call of `print_tagged_helper` with the helper's tag becomes
the first instruction of its entry block. Tagging a module twice makes it report twice.
-/

namespace EntryTrace

/-- How the names of helpers start. -/
def helperStart : String := "helper_"

/-- How tags start. -/
def tagStart : String := "|-- "

/-- The function that tags are handed to. -/
def tagCallee : String := "print_tagged_helper"

/-- The type under which that function is declared if the module does not have it. -/
def tagCalleeType : FuncType := ⟨[.ptr], [.i32]⟩

def isHelperName (name : String) : Bool := helperStart.toList.isPrefixOf name.toList

/-- Does tagging change this function? -/
def Decl.isHelper (decl : Decl) : Bool := !decl.isImported && isHelperName decl.name

/-- What a helper of this name reports. -/
def tagFor (name : String) : String := tagStart ++ name

section Tagging

variable {m : Type → Type} [Monad m] [MonadExceptOf Fault m] [Journal m]

/-- Puts a call of `callee` with `str` in front of all instructions, and answers the call. -/
@[specialize] def Body.tag (body : Body) (callee : Func) (returns : List ValueType) (str : Str) :
    m (Value × Body) := do
  let (arg, body) ← body.addValue (.strRef str)
  let (call, body) ← body.addValue (.inst (.call callee) [arg] returns)
  let body ← body.prependInst body.entry call
  pure (call, body)

/-- Tags the helpers among functions, in order; each adds its tag to the strings. -/
@[specialize] def tagDecls (callee : Func) (returns : List ValueType)
    (strings : Table .str String) : List Decl → m (List Decl × Table .str String)
  | [] => pure ([], strings)
  | decl@(.imported ..) :: rest => do
    let (rest, strings) ← tagDecls callee returns strings rest
    pure (decl :: rest, strings)
  | decl@(.defined signature name body) :: rest => do
    if isHelperName name then
      let (str, strings) ← strings.push (tagFor name)
      let (call, body) ← body.tag callee returns str
      note .debug fun _ => "tag_helpers: tagged `" ++ name ++ "` with " ++ call.text
        ++ " (" ++ str.text ++ ")"
      let (rest, strings) ← tagDecls callee returns strings rest
      pure (.defined signature name body :: rest, strings)
    else
      let (rest, strings) ← tagDecls callee returns strings rest
      pure (decl :: rest, strings)

/-- Tags every helper of a module once. -/
@[specialize] def tagHelpers (module : Module) : m Module := do
  let (callee, module) ← module.declare tagCallee tagCalleeType
  let type ← module.funcType callee
  let (decls, strings) ← tagDecls callee type.returns module.strings module.funcs.toList
  let module := { module with strings, funcs := Table.ofList decls }
  notePrinted .trace fun _ => do
    pure ("tag_helpers: result:\n" ++ (← module.render false))
  pure module

end Tagging

end EntryTrace
