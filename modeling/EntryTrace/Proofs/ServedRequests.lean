import EntryTrace.Proofs.StableTables

/-!
# Requests to the tables of a module

A module is asked again and again for signatures, for functions by name and for strings, and is tagged
in between. As long as no table gets as large as it can be, all requests are served, in any order, and
what one of them answers holds for good.
-/

namespace EntryTrace

/-- What a module can be asked for. -/
inductive TableRequest
  | signature (type : FuncType)
  | function (name : String) (type : FuncType)
  | string (s : String)
  | tagging

/-- The number that a request is answered with; tagging is done without one. -/
inductive TableAnswer
  | signature (signature : Signature)
  | function (func : Func)
  | string (str : Str)
  | tagged

namespace TableRequest

/-- Serves a request. -/
def serve (m : Module) : TableRequest → Except Fault (TableAnswer × Module)
  | .signature type => do
    let (found, m) ← m.internSignature type
    pure (.signature found, m)
  | .function name type => do
    let (found, m) ← m.declare name type
    pure (.function found, m)
  | .string s => do
    let (added, m) ← m.addString s
    pure (.string added, m)
  | .tagging => do
    let m ← tagHelpers m
    pure (.tagged, m)

/-- The answer to a request and the module after it, whatever room there is. -/
def outcome (m : Module) : TableRequest → TableAnswer × Module
  | .signature type => (.signature (m.signatureOf type), m.interned type)
  | .function name type => (.function (m.funcOf name), m.declared name type)
  | .string s => (.string ⟨m.strings.size⟩, { m with strings := m.strings.append s })
  | .tagging => (.tagged, m.taggedTimes 1)

/-- Two requests ask for the same: the same type, or a function of the same name of whatever type.
A string is a new one each time. -/
inductive AsksSame : TableRequest → TableRequest → Prop
  | signature (type : FuncType) : AsksSame (.signature type) (.signature type)
  | function (name : String) (type type' : FuncType) :
    AsksSame (.function name type) (.function name type')

end TableRequest

/-- In the module, the answer is the number of what the request asks for: the first signature of the
type, the first function of the name, or a string. -/
inductive TableAnswer.Holds (m : Module) : TableRequest → TableAnswer → Prop
  | signature {type : FuncType} {found : Signature} (hget : m.signatures.get? found = some type)
    (hfirst : m.signatures.find? (· == type) = some found) :
    Holds m (.signature type) (.signature found)
  | function {name : String} {type : FuncType} {found : Func} {decl : Decl}
    (hget : m.funcs.get? found = some decl) (hname : decl.name = name)
    (hfirst : m.funcNamed? name = some found) : Holds m (.function name type) (.function found)
  | string {s : String} {added : Str} (hget : m.strings.get? added = some s) :
    Holds m (.string s) (.string added)
  | tagged : Holds m .tagging .tagged

/-- A request that was served, with the module after it. -/
structure Service where
  request : TableRequest
  answer : TableAnswer
  after : Module

namespace Module

variable {m m' : Module} {request request' : TableRequest} {answer answer' : TableAnswer}

/-- Serves requests one after the other. -/
def serveAll (m : Module) : List TableRequest → Except Fault (List Service)
  | [] => pure []
  | request :: rest => do
    let (answer, m') ← request.serve m
    let services ← m'.serveAll rest
    pure (⟨request, answer, m'⟩ :: services)

/-- How requests are served, whatever room there is. -/
def services (m : Module) : List TableRequest → List Service
  | [] => []
  | request :: rest =>
    let (answer, m') := request.outcome m
    ⟨request, answer, m'⟩ :: m'.services rest

/-- The module after all requests, whatever room there is. -/
def afterAll (m : Module) (requests : List TableRequest) : Module :=
  requests.foldl (fun m request => (request.outcome m).2) m

/-! ### One request -/

lemma growsTo_outcome (m : Module) (request : TableRequest) : m.GrowsTo (request.outcome m).2 := by
  cases request with
  | signature type => exact growsTo_interned type
  | function name type => exact growsTo_declared name type
  | string s => exact growsTo_addString s
  | tagging => exact growsTo_taggedTimes m 1

lemma holds_function {name : String} {type : FuncType} {found : Func}
    (h : m.funcNamed? name = some found) :
    (TableAnswer.function found).Holds m (.function name type) := by
  obtain ⟨decl, hget, hname⟩ := Table.find?_get? h
  exact .function hget (by simpa using hname) h

lemma find?_signatureOf (type : FuncType) :
    (m.interned type).signatures.find? (· == type) = some (m.signatureOf type) := by
  unfold interned signatureOf
  cases hfind : m.signatures.find? (· == type) with
  | some found => simpa using hfind
  | none => simp [Table.find?_append, hfind]

lemma holds_outcome (m : Module) (request : TableRequest) :
    (request.outcome m).1.Holds (request.outcome m).2 request := by
  cases request with
  | signature type => exact .signature (get?_signatureOf type) (find?_signatureOf type)
  | function name type => exact holds_function (m.funcNamed?_declared name type)
  | string s => exact .string (Table.get?_append_size _ _)
  | tagging => exact .tagged

/-- What an answer says holds also in all modules that the module grows to. -/
lemma GrowsTo.holds (h : m.GrowsTo m') (hholds : answer.Holds m request) :
    answer.Holds m' request := by
  cases hholds with
  | signature hget hfirst =>
    exact .signature (Table.PrefixOf.get? h.signatures.isPrefix hget) (h.find?_signatures hfirst)
  | function _ _ hfirst => exact holds_function (h.funcNamed? hfirst)
  | string hget => exact .string (h.strings.get? hget)
  | tagged => exact .tagged

/-- In one module, the same question has one answer. -/
lemma eq_of_holds (hsame : request.AsksSame request') (h : answer.Holds m request)
    (h' : answer'.Holds m request') : answer = answer' := by
  cases hsame with
  | signature =>
    cases h with
    | signature _ hfirst =>
      cases h' with
      | signature _ hfirst' => rw [Option.some.inj (hfirst.symm.trans hfirst')]
  | function =>
    cases h with
    | function _ _ hfirst =>
      cases h' with
      | function _ _ hfirst' => rw [Option.some.inj (hfirst.symm.trans hfirst')]

/-- A request is served if there is room for what it leaves behind. -/
lemma serve_eq_outcome (hsig : m.SignaturesInRange) (hentry : m.HelperEntriesInRange)
    (hlimit : (request.outcome m).2.BelowLimit) : request.serve m = .ok (request.outcome m) := by
  cases request with
  | signature type =>
    simp only [TableRequest.serve, internSignature_eq_ok hlimit.signatures.le, ok_bind]
    rfl
  | function name type =>
    simp only [TableRequest.serve, declare_eq_ok hsig hlimit.signatures.le hlimit.funcs.le, ok_bind]
    rfl
  | string s =>
    have hroom := hlimit.strings
    have hpush : (m.strings.push s : Except Fault _) = .ok (⟨m.strings.size⟩, m.strings.append s) :=
      Table.push_eq_ok.2 ⟨by simp [TableRequest.outcome] at hroom; omega, rfl⟩
    simp only [TableRequest.serve, addString, hpush, ok_bind]
    rfl
  | tagging =>
    simp only [TableRequest.serve,
      (RoomForRuns.of_belowLimit hsig hentry hlimit).tagHelpers_eq, ok_bind]
    rfl

/-! ### All requests -/

lemma growsTo_afterAll (m : Module) (requests : List TableRequest) : m.GrowsTo (m.afterAll requests) := by
  induction requests generalizing m with
  | nil => rfl
  | cons request rest ih => exact (growsTo_outcome m request).trans (ih _)

lemma serveAll_eq_services {requests : List TableRequest} (hsig : m.SignaturesInRange)
    (hentry : m.HelperEntriesInRange) (hlimit : (m.afterAll requests).BelowLimit) :
    m.serveAll requests = .ok (m.services requests) := by
  induction requests generalizing m with
  | nil => rfl
  | cons request rest ih =>
    have hgrows := growsTo_outcome m request
    have hroom : (request.outcome m).2.BelowLimit := (growsTo_afterAll _ rest).belowLimit hlimit
    have hrest := ih (hgrows.signaturesInRange hsig) (hgrows.helperEntriesInRange hentry) hlimit
    simp only [serveAll, serve_eq_outcome hsig hentry hroom, ok_bind]
    rw [hrest]
    rfl

lemma map_request_services (m : Module) (requests : List TableRequest) :
    (m.services requests).map Service.request = requests := by
  induction requests generalizing m with
  | nil => rfl
  | cons request rest ih => exact congrArg (request :: ·) (ih _)

lemma growsTo_of_mem_services {requests : List TableRequest} {service : Service}
    (h : service ∈ m.services requests) : m.GrowsTo service.after := by
  induction requests generalizing m with
  | nil => cases h
  | cons request rest ih =>
    rcases List.mem_cons.1 h with rfl | h
    · exact growsTo_outcome m request
    · exact (growsTo_outcome m request).trans (ih h)

lemma pairwise_growsTo_services (m : Module) (requests : List TableRequest) :
    (m :: (m.services requests).map Service.after).Pairwise GrowsTo := by
  induction requests generalizing m with
  | nil => exact List.pairwise_singleton _ _
  | cons request rest ih =>
    refine List.pairwise_cons.2 ⟨fun m' hm' => ?_, ih _⟩
    obtain ⟨service, hservice, rfl⟩ := List.mem_map.1 hm'
    exact growsTo_of_mem_services hservice

lemma pairwise_holds_services (m : Module) (requests : List TableRequest) :
    (m.services requests).Pairwise fun s t => s.answer.Holds t.after s.request := by
  induction requests generalizing m with
  | nil => exact .nil
  | cons request rest ih =>
    refine List.pairwise_cons.2 ⟨fun service hservice => ?_, ih _⟩
    exact (growsTo_of_mem_services hservice).holds (holds_outcome m request)

lemma holds_services {requests : List TableRequest} {service : Service}
    (h : service ∈ m.services requests) : service.answer.Holds service.after service.request ∧
      service.answer.Holds (m.afterAll requests) service.request := by
  induction requests generalizing m with
  | nil => cases h
  | cons request rest ih =>
    rcases List.mem_cons.1 h with rfl | h
    · exact ⟨holds_outcome m request, (growsTo_afterAll _ rest).holds (holds_outcome m request)⟩
    · exact ih h

end Module

/-- The tables of a module only grow, and what is answered about them holds for good. Requests are all
served, in any order, as long as no table gets as large as it can be. Each module on the way grows to
those after it: signatures, strings and functions keep their numbers, functions also their names,
signatures and kinds, and no type or name is added that is there already. Each answer is the number of
what was asked for, in the module right after it and in all later ones; the same question has the same
answer each time. If the types of the module are distinct at first, they are throughout. -/
theorem serveAll_stable {m : Module} {requests : List TableRequest} (hsig : m.SignaturesInRange)
    (hentry : m.HelperEntriesInRange) (hlimit : (m.afterAll requests).BelowLimit) :
    ∃ services, m.serveAll requests = .ok services ∧
      services.map Service.request = requests ∧
      (m :: services.map Service.after).Pairwise Module.GrowsTo ∧
      (∀ s ∈ services, s.answer.Holds s.after s.request) ∧
      (services.Pairwise fun s t => s.answer.Holds t.after s.request) ∧
      (∀ s ∈ services, ∀ t ∈ services, s.request.AsksSame t.request → s.answer = t.answer) ∧
      (m.signatures.toList.Nodup → ∀ s ∈ services, s.after.signatures.toList.Nodup) := by
  refine ⟨m.services requests, Module.serveAll_eq_services hsig hentry hlimit,
    m.map_request_services requests, m.pairwise_growsTo_services requests,
    fun s hs => (Module.holds_services hs).1, m.pairwise_holds_services requests, ?_, ?_⟩
  · exact fun s hs t ht hsame =>
      Module.eq_of_holds hsame (Module.holds_services hs).2 (Module.holds_services ht).2
  · exact fun hdistinct s hs => (Module.growsTo_of_mem_services hs).signatures.nodup hdistinct

/-- A module that holds a type and a name twice. -/
def twiceNamed : Module :=
  let body : Body := { entry := ⟨0⟩, blocks := .ofList [{ terminator := .ret [] }] }
  { signatures := .ofList [⟨[], []⟩, ⟨[], []⟩]
    funcs := .ofList [.imported ⟨1⟩ "f", .defined ⟨0⟩ "helper_f" body, .imported ⟨0⟩ "f"] }

def twiceNamedRequests : List TableRequest :=
  [.function "f" ⟨[.i32], []⟩, .tagging, .signature ⟨[], []⟩, .function "g" ⟨[], []⟩,
    .function "f" ⟨[], []⟩, .string "s", .tagging]

theorem serveAll_stable_twiceNamed :
    twiceNamed.SignaturesInRange ∧ twiceNamed.HelperEntriesInRange ∧
      (twiceNamed.afterAll twiceNamedRequests).BelowLimit ∧
      ∃ services, twiceNamed.serveAll twiceNamedRequests = .ok services ∧
        (twiceNamed :: services.map Service.after).Pairwise Module.GrowsTo ∧
        ∀ s ∈ services, s.answer.Holds s.after s.request := by
  have hsig : twiceNamed.SignaturesInRange := by decide +kernel
  have hentry : twiceNamed.HelperEntriesInRange := by decide +kernel
  have hlimit : (twiceNamed.afterAll twiceNamedRequests).BelowLimit := by decide +kernel
  obtain ⟨services, hserved, -, hgrows, hholds, -⟩ := serveAll_stable hsig hentry hlimit
  exact ⟨hsig, hentry, hlimit, services, hserved, hgrows, hholds⟩

end EntryTrace
