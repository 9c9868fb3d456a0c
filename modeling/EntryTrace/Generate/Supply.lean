/-!
# Drawing from bytes

Choices are drawn from a supply of bytes, front first. An empty supply goes on with zeros, so
that every draw succeeds.
-/

namespace EntryTrace

/-- The bytes that are left. -/
abbrev Supply := List UInt8

namespace Supply

/-- Takes bytes, at most `width`, as long as the numbers up to `span` need more of them; `n` is
what those before amount to. -/
def takeNumber : Nat → Nat → Nat → Supply → Nat × Supply
  | width + 1, span, n, byte :: rest =>
    if span = 0 then (n, byte :: rest)
    else takeNumber width (span / 256) (n * 256 + byte.toNat) rest
  | _, _, n, rest => (n, rest)

/-- A number from `low` to `high`, held in `width` bytes. -/
def between (width low high : Nat) (supply : Supply) : Nat × Supply :=
  let (n, rest) := takeNumber width (high - low) 0 supply
  (low + n % (high - low + 1), rest)

/-- One of `first` and `others`; nothing is taken if there is no choice. -/
def choose {α : Type} (first : α) (others : List α) (supply : Supply) : α × Supply :=
  let (i, rest) := between 8 0 others.length supply
  ((first :: others).getD i first, rest)

def bool : Supply → Bool × Supply
  | [] => (false, [])
  | byte :: rest => (byte % 2 == 1, rest)

/-- A word of 32 bits, its lowest byte first. -/
def word32 (supply : Supply) : UInt32 × Supply :=
  let bytes := supply.take 4
  (UInt32.ofNat (bytes.foldr (fun byte n => byte.toNat + 256 * n) 0), supply.drop 4)

/-- A number drawn from the supply stays within its range. -/
theorem between_mem {width low high : Nat} (h : low ≤ high) (supply : Supply) :
    low ≤ (between width low high supply).1 ∧ (between width low high supply).1 ≤ high := by
  simp only [between]
  have := Nat.mod_lt (takeNumber width (high - low) 0 supply).1
    (show 0 < high - low + 1 by omega)
  omega

end Supply

end EntryTrace
