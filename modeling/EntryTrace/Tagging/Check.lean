import EntryTrace.Tagging

/-!
# Checking the result of tagging

Compares a module with what tagging it once is said to have made of it. Only what tagging
touches is compared: the names of the functions and the instructions of their entry blocks.
-/

namespace EntryTrace

/-- The functions of a name, in order. -/
def Module.funcsNamed (module : Module) (name : String) : List Func :=
  (module.funcs.entries.filter fun (_, decl) => decl.name == name).map Prod.fst

/-- The instructions of the entry block. -/
def Body.entryInsts (body : Body) : Except Fault (List Value) := do
  let data ← body.blocks.get body.entry
  pure data.insts

/-- Checks that an instruction of a helper of the given name is the call that tags it. -/
def checkTagCall (after : Module) (callee func : Func) (name : String) (body : Body)
    (inst : Value) : Except Fault Unit := do
  match ← body.values.get inst with
  | .inst (.call called) args _ =>
    check (called = callee)
    match args with
    | [arg] =>
      match ← body.values.get arg with
      | .strRef str =>
        let tag ← after.string str
        check (tag = tagFor name)
      | found => fault (.tagArgument found)
    | _ => fault .checkFailed
  | found => fault (.firstInstruction func found)

/-- Checks a function against what it was before. -/
def checkTaggedFunc (after : Module) (callee func : Func) (old : Decl) : Except Fault Unit := do
  let new ← after.funcs.get func
  check (old.name = new.name)
  match old.body?, new.body? with
  | none, none => pure ()
  | some oldBody, some newBody =>
    let oldInsts ← oldBody.entryInsts
    let newInsts ← newBody.entryInsts
    if old.isHelper then
      match newInsts with
      | [] => fault .checkFailed
      | first :: rest =>
        check (rest = oldInsts)
        checkTagCall after callee func old.name newBody first
    else
      check (oldInsts = newInsts)
  | _, _ => fault (.kindChanged func)

/-- Faults unless `after` passes for `before` after tagging it once. -/
def checkTagged (before after : Module) : Except Fault Unit := do
  match after.funcsNamed tagCallee with
  | [] => fault .checkFailed
  | callee :: others =>
    match before.funcNamed? tagCallee with
    | none =>
      check others.isEmpty
      check (after.funcs.size = before.funcs.size + 1)
    | some _ => check (after.funcs.size = before.funcs.size)
    before.funcs.entries.forM fun (func, old) => checkTaggedFunc after callee func old

end EntryTrace
