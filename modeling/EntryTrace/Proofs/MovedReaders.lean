import EntryTrace.Proofs.Phrases

/-!
# Readers in front of tokens on other lines

A reader hands lines on and looks at none. So where the tokens are moved to other lines it does what it
did before, and the lines in its answer or in its error are moved in the same way.
-/

namespace EntryTrace

open Source

/-- The error on the line that `f` moves its line to. -/
def SourceError.moved (f : Nat → Nat) (e : SourceError) : SourceError := { e with line := f e.line }

namespace Source

def Located.moved (f : Nat → Nat) (l : Located) : Located := { l with line := f l.line }

def Extent.moved (f : Nat → Nat) (extent : Extent) : Extent :=
  { extent with endLine := f extent.endLine }

def InstTree.moved (f : Nat → Nat) (tree : InstTree) : InstTree := { tree with line := f tree.line }

def BlockTree.moved (f : Nat → Nat) (tree : BlockTree) : BlockTree :=
  { tree with
    line := f tree.line
    insts := tree.insts.map (InstTree.moved f)
    termLine := f tree.termLine }

def FuncTree.moved (f : Nat → Nat) (tree : FuncTree) : FuncTree :=
  { tree with
    line := f tree.line
    blocks? := tree.blocks?.map (List.map (BlockTree.moved f)) }

def ModuleTree.moved (f : Nat → Nat) (tree : ModuleTree) : ModuleTree :=
  { tree with funcs := tree.funcs.map (FuncTree.moved f) }

/-- An answer or an error, where `f` moves the line of the error and `g` the lines in the answer. -/
def movedEnd {α β : Type} (f : Nat → Nat) (g : α → β) (r : Except SourceError α) :
    Except SourceError β :=
  (r.mapError (SourceError.moved f)).map g

namespace Reader

variable {f : Nat → Nat} {α α' β β' σ σ' : Type}

/-- In front of the moved tokens `y` does what `x` does in front of the tokens themselves. -/
def Carries (f : Nat → Nat) (g : α → β) (x : Reader α) (y : Reader β) : Prop :=
  ∀ extent located, y (extent.moved f) (located.map (Located.moved f)) =
    movedEnd f (Prod.map g (List.map (Located.moved f))) (x extent located)

variable {g : α → β} {h : α' → β'} {x : Reader α} {y : Reader β} {k : α → Reader α'}

lemma carries_pure (a : α) : Carries f g (pure a) (pure (g a)) := fun _ _ => rfl

lemma carries_fail (line : Nat) (cause : Cause) :
    Carries f g (fail line cause) (fail (f line) cause) := fun _ _ => rfl

lemma Carries.bind {k' : β → Reader β'} (hx : Carries f g x y)
    (hk : ∀ a, Carries f h (k a) (k' (g a))) : Carries f h (x >>= k) (y >>= k') := by
  intro extent located
  rw [bind_apply, bind_apply, hx extent located]
  cases x extent located with
  | error e => rfl
  | ok p => exact hk p.1 extent p.2

/-- There are no lines in what the first reader answers. -/
lemma Carries.bindSame {x' : Reader α} {k' : α → Reader β'} (hx : Carries f id x x')
    (hk : ∀ a, Carries f h (k a) (k' a)) : Carries f h (x >>= k) (x' >>= k') :=
  hx.bind hk

lemma Carries.map (hx : Carries f id x x) (r : α → α') : Carries f id (r <$> x) (r <$> x) := by
  rw [map_eq_pure_bind]
  exact hx.bindSame fun a => carries_pure (r a)

lemma carries_ite {p : Prop} [Decidable p] {x' : Reader α} {y' : Reader β} (hx : Carries f g x y)
    (hx' : Carries f g x' y') : Carries f g (if p then x else x') (if p then y else y') := by
  split
  · exact hx
  · exact hx'

lemma carries_line : Carries f f line line := by
  intro extent located
  cases located <;> rfl

lemma carries_peek? : Carries f id peek? peek? := by
  intro extent located
  cases located <;> rfl

lemma carries_take (expected : Expected) (accept : Token → Except GrammarCause α) :
    Carries f id (take expected accept) (take expected accept) := by
  intro extent located
  cases located with
  | nil => rfl
  | cons l located =>
    simp only [List.map_cons, take, Located.moved]
    cases accept l.token <;> rfl

lemma carries_eat (t : Token) : Carries f id (eat t) (eat t) := by
  intro extent located
  cases located with
  | nil => rfl
  | cons l located =>
    simp only [List.map_cons, eat, Located.moved]
    split <;> rfl

/-! ### Loops -/

/-- What one round does to the lines in its state, all rounds together do. -/
lemma carries_iterate {s : σ → σ'} {round : σ → Reader (σ ⊕ α)} {round' : σ' → Reader (σ' ⊕ β)}
    (hround : ∀ a, Carries f (Sum.map s g) (round a) (round' (s a))) {a : σ} {b : σ'} (hab : s a = b) :
    Carries f g (iterate round a) (iterate round' b) := by
  subst hab
  have hrounds (n : Nat) : ∀ a, Carries f g (rounds round n a) (rounds round' n (s a)) := by
    induction n with
    | zero => exact fun _ _ _ => rfl
    | succ n ih =>
      intro a
      rw [rounds, rounds]
      refine (hround a).bind fun result => ?_
      cases result with
      | inl a => exact ih a
      | inr answer => exact carries_pure answer
  exact fun extent => hrounds (extent.size + 1) a extent

lemma carries_iterateSame {round : σ → Reader (σ ⊕ α)}
    (hround : ∀ a, Carries f id (round a) (round a)) (a : σ) :
    Carries f id (iterate round a) (iterate round a) :=
  carries_iterate (s := id) (fun a => by rw [Sum.map_id_id]; exact hround a) rfl

/-! ### The readers of the grammar -/

lemma carries_parenthesized {item : Reader α} (hitem : Carries f id item item) :
    Carries f id (parenthesized item) (parenthesized item) := by
  refine (carries_take _ _).bindSame fun _ => (carries_eat _).bindSame fun found =>
    carries_ite (carries_pure _) (carries_iterateSame (fun items => ?_) [])
  exact hitem.bindSame fun a => (carries_eat _).bindSame fun found =>
    carries_ite (carries_pure _) ((carries_take _ _).bindSame fun _ => carries_pure _)

lemma carries_operands : Carries f id (parenthesized operand) (parenthesized operand) :=
  carries_parenthesized (carries_take _ _)

lemma carries_target : Carries f id target target :=
  (carries_take _ _).bindSame fun _ => Carries.bindSame carries_operands fun _ => carries_pure _

lemma carries_operation : Carries f id operation operation := by
  refine Carries.bind carries_line fun line => (carries_take _ _).bindSame fun mnemonic => ?_
  split
  · exact carries_pure _
  · exact (carries_take _ _).map _
  · exact (carries_take _ _).map _
  · exact (carries_take _ _).bindSame fun _ =>
      Carries.bindSame carries_operands fun _ => carries_pure _
  · split
    · exact (carries_take _ _).bindSame fun _ => (carries_take _ _).bindSame fun _ =>
        (carries_take _ _).bindSame fun _ => carries_pure _
    · exact carries_fail line _

lemma carries_bareOperands : Carries f id bareOperands bareOperands := by
  have hat : Carries f id atOperand atOperand := by
    refine Carries.bindSame carries_peek? fun token => ?_
    split <;> exact carries_pure _
  refine hat.bindSame fun found =>
    carries_ite (carries_iterateSame (fun values => ?_) []) (carries_pure _)
  exact (carries_take _ _).bindSame fun value => (carries_eat _).bindSame fun found =>
    carries_ite (carries_pure _) (carries_pure _)

lemma carries_terminator (line : Nat) (keyword : String) :
    Carries f id (terminator line keyword) (terminator (f line) keyword) := by
  unfold terminator
  split
  · exact Carries.map carries_target _
  · exact (carries_take _ _).bindSame fun _ => (carries_take _ _).bindSame fun _ =>
      Carries.bindSame carries_target fun _ => (carries_take _ _).bindSame fun _ =>
        Carries.bindSame carries_target fun _ => carries_pure _
  · exact Carries.map carries_bareOperands _
  · exact carries_pure _
  · exact carries_fail line _

/-- Moves the lines in what is inside a block. -/
def movedInside (f : Nat → Nat) (inside : List InstTree × TermTree × Nat) :
    List InstTree × TermTree × Nat :=
  (inside.1.map (InstTree.moved f), inside.2.1, f inside.2.2)

lemma carries_blockInside : Carries f (movedInside f) blockInside blockInside := by
  refine carries_iterate (s := List.map (InstTree.moved f)) (fun insts => ?_) rfl
  refine Carries.bind carries_line fun line => (carries_take _ _).bindSame fun keyword => ?_
  split
  · exact (carries_take _ _).bindSame fun _ =>
      Carries.bindSame carries_operation fun op => carries_pure _
  · refine (carries_terminator line keyword).bindSame fun term => ?_
    rw [← List.map_reverse]
    exact carries_pure (Sum.inr (insts.reverse, term, line))

lemma carries_block : Carries f (BlockTree.moved f) block block := by
  have hparam : Carries f id blockParam blockParam :=
    (carries_take _ _).bindSame fun _ => (carries_take _ _).bindSame fun _ =>
      (carries_take _ _).bindSame fun _ => carries_pure _
  exact Carries.bind carries_line fun line => (carries_take _ _).bindSame fun name =>
    (carries_parenthesized hparam).bindSame fun params => (carries_take _ _).bindSame fun _ =>
      Carries.bind carries_blockInside fun inside => carries_pure _

lemma carries_blocks : Carries f (List.map (BlockTree.moved f)) blocks blocks := by
  refine carries_iterate (s := List.map (BlockTree.moved f)) (fun trees => ?_) rfl
  refine (carries_eat _).bindSame fun found =>
    carries_ite ?_ (Carries.bind carries_block fun tree => ?_)
  · rw [← List.map_reverse]
    exact carries_pure (Sum.inr trees.reverse)
  · exact carries_pure (Sum.inl (tree :: trees))

lemma carries_func (line : Nat) : Carries f (FuncTree.moved f) (func line) (func (f line)) := by
  refine (carries_take _ _).bindSame fun _ => Carries.bind carries_line fun kindLine =>
    (carries_take _ _).bindSame fun kind => (carries_take _ _).bindSame fun name =>
      (carries_take _ _).bindSame fun _ => (carries_take _ _).bindSame fun signature => ?_
  split
  · exact carries_pure _
  · refine (carries_take _ _).bindSame fun _ => Carries.bind carries_blocks fun trees => ?_
    rw [List.isEmpty_map]
    exact carries_ite (carries_fail line _) (carries_pure _)
  · exact carries_fail kindLine _

lemma carries_funcType (line : Nat) : Carries f id (funcType line) (funcType (f line)) := by
  have htypes : Carries f id (parenthesized valueType) (parenthesized valueType) :=
    carries_parenthesized (carries_take _ _)
  exact (carries_take _ _).bindSame fun _ => htypes.bindSame fun params =>
    (carries_take _ _).bindSame fun _ => htypes.bindSame fun returns =>
      carries_ite (carries_fail line _) (carries_pure _)

lemma carries_item (tree : ModuleTree) :
    Carries f (ModuleTree.moved f) (item tree) (item (tree.moved f)) := by
  have hnumber (line : Nat) (kind : Kind) (found size : Nat) (name : String) :
      Carries f id (checkNumber line kind found size name)
        (checkNumber (f line) kind found size name) :=
    carries_ite (carries_pure _) (carries_fail line _)
  have htypes : (tree.moved f).types = tree.types := rfl
  have hstrings : (tree.moved f).strings = tree.strings := rfl
  have hfuncs : (tree.moved f).funcs.size = tree.funcs.size := Array.size_map
  unfold item
  rw [htypes, hstrings, hfuncs]
  refine Carries.bind carries_line fun line => (carries_take _ _).bindSame fun name => ?_
  split
  · exact (hnumber _ _ _ _ _).bindSame fun _ => (carries_funcType line).bindSame fun type =>
      carries_pure { tree with types := tree.types.push type }
  split
  · exact (hnumber _ _ _ _ _).bindSame fun _ => (carries_take _ _).bindSame fun _ =>
      (carries_take _ _).bindSame fun s =>
        carries_pure { tree with strings := tree.strings.push s }
  split
  · refine (hnumber _ _ _ _ _).bindSame fun _ => (carries_func line).bind fun func => ?_
    have hpush : (tree.moved f).funcs.push (func.moved f) =
        (tree.funcs.push func).map (FuncTree.moved f) := Array.map_push.symm
    rw [hpush]
    exact carries_pure { tree with funcs := tree.funcs.push func }
  · exact carries_fail line _

/-- A module is read from tokens on other lines as the same module with its lines moved. -/
theorem carries_module : Carries f (ModuleTree.moved f) Reader.module Reader.module := by
  refine (carries_take _ _).bindSame fun _ => (carries_take _ _).bindSame fun _ => ?_
  refine Carries.bind (g := ModuleTree.moved f) ?_ fun tree =>
    Carries.bindSame carries_peek? fun token => ?_
  · have hempty : ModuleTree.moved f {} = {} := by simp [ModuleTree.moved]
    refine carries_iterate (s := ModuleTree.moved f) (fun tree => ?_) hempty
    refine (carries_eat _).bindSame fun found => carries_ite (carries_pure _) ?_
    exact (carries_item tree).bind fun tree => carries_pure _
  · split
    · exact carries_pure _
    · exact Carries.bind carries_line fun line => carries_fail line _

end Reader

end Source

end EntryTrace
