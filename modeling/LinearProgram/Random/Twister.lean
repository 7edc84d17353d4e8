import LinearProgram.Power
/-!
# The twister

A generator of 32-bit words by a linear recurrence over 624 words: a new word joins the top bit of
the oldest with the other bits of the next, shifts that right by one, adds a constant if a one fell
out, and adds the word 397 places on.  Every word is tempered before it is used.  The first 624 words
are stirred together from a seed of any size, given as a list of words.

Words grow at the end of an array, so that word `624 + k` depends on the words `k`, `k + 1` and
`k + 397` only.
-/

namespace LinearProgram.Twister

/-- The number of words that the recurrence reaches back. -/
def degree : Nat := 624

/-- The words of a natural number, the lowest first; one zero word for zero. -/
def seedWords (seed : Int) : List UInt32 :=
  let rec words (n fuel : Nat) : List UInt32 :=
    match fuel with
    | 0 => []
    | fuel + 1 => if n = 0 then [] else UInt32.ofNat n :: words (n / 2 ^ (32 : Nat)) fuel
  match words seed.natAbs (seed.natAbs.log2 / 32 + 1) with
  | [] => [0]
  | ws => ws

/-- The word at a place, zero outside. -/
def wordAt (ws : Array UInt32) (i : Nat) : UInt32 := ws.getD i 0

/-- A word mixed with its own upper bits. -/
def folded (w : UInt32) : UInt32 := w ^^^ (w >>> 30)

/-- The words before stirring. -/
def unstirred : Array UInt32 :=
  (List.range (degree - 1)).foldl
    (fun ws i => ws.push (1812433253 * folded (wordAt ws i) + UInt32.ofNat (i + 1))) #[19650218]

/-- A place in the words and a place in the key, while the words are stirred. -/
structure Stirring where
  words : Array UInt32
  place : Nat
  keyPlace : Nat

/-- Set the word at the place and go on; after the last place the last word also becomes the first. -/
def Stirring.put (s : Stirring) (w : UInt32) : Stirring :=
  let ws := s.words.setIfInBounds s.place w
  if s.place + 1 < degree then { s with words := ws, place := s.place + 1 }
  else { s with words := ws.setIfInBounds 0 (wordAt ws (degree - 1)), place := 1 }

/-- The folded word before the place. -/
def Stirring.previous (s : Stirring) : UInt32 := folded (wordAt s.words (s.place - 1))

/-- Stir a word of the key in. -/
def Stirring.withKey (key : Array UInt32) (s : Stirring) : Stirring :=
  let w := (wordAt s.words s.place ^^^ (s.previous * 1664525)) + wordAt key s.keyPlace +
    UInt32.ofNat s.keyPlace
  { s.put w with keyPlace := if s.keyPlace + 1 < key.size then s.keyPlace + 1 else 0 }

/-- Stir once more without the key. -/
def Stirring.withPlace (s : Stirring) : Stirring :=
  s.put ((wordAt s.words s.place ^^^ (s.previous * 1566083941)) - UInt32.ofNat s.place)

/-- Do a step a number of times. -/
def times {α : Type} (step : α → α) : Nat → α → α
  | 0, x => x
  | n + 1, x => times step n (step x)

/-- The first 624 words for a seed. -/
def initial (seed : Int) : Array UInt32 :=
  let key := (seedWords seed).toArray
  let keyed := times (Stirring.withKey key) (max degree key.size) ⟨unstirred, 1, 0⟩
  (times Stirring.withPlace (degree - 1) keyed).words.setIfInBounds 0 0x80000000

/-- Add the next word. -/
def extend (ws : Array UInt32) : Array UInt32 :=
  let k := ws.size - degree
  let joined := (wordAt ws k &&& 0x80000000) ||| (wordAt ws (k + 1) &&& 0x7fffffff)
  let shifted := (joined >>> 1) ^^^ (if joined &&& 1 = 1 then 0x9908b0df else 0)
  ws.push (wordAt ws (k + 397) ^^^ shifted)

/-- A word as it is used. -/
def temper (w : UInt32) : UInt32 :=
  let w := w ^^^ (w >>> 11)
  let w := w ^^^ ((w <<< 7) &&& 0x9d2c5680)
  let w := w ^^^ ((w <<< 15) &&& 0xefc60000)
  w ^^^ (w >>> 18)

/-- The words of a seed that serve so many draws, two for each, after the first 624. -/
def wordsFor (seed : Int) (draws : Nat) : Array UInt32 := times extend (2 * draws) (initial seed)

/-- Draw `k` as a whole number below `2 ^ 53`: 27 bits of one word and 26 of the next. -/
def drawOf (ws : Array UInt32) (k : Nat) : Nat :=
  let high := temper (wordAt ws (degree + 2 * k)) >>> 5
  let low := temper (wordAt ws (degree + 2 * k + 1)) >>> 6
  high.toNat * 2 ^ (26 : Nat) + low.toNat

/-- Every draw is below `2 ^ 53`. -/
theorem drawOf_lt (ws : Array UInt32) (k : Nat) : drawOf ws k < 2 ^ (53 : Nat) := by
  have hh : ∀ w : UInt32, (w >>> 5).toNat < 2 ^ (27 : Nat) := by
    intro w
    have h := w.toNat_lt
    simp only [UInt32.toNat_shiftRight, Nat.shiftRight_eq_div_pow]
    have : (5 : UInt32).toNat % 32 = 5 := rfl
    rw [this]
    omega
  have hl : ∀ w : UInt32, (w >>> 6).toNat < 2 ^ (26 : Nat) := by
    intro w
    have h := w.toNat_lt
    simp only [UInt32.toNat_shiftRight, Nat.shiftRight_eq_div_pow]
    have : (6 : UInt32).toNat % 32 = 6 := rfl
    rw [this]
    omega
  have h1 := hh (temper (wordAt ws (degree + 2 * k)))
  have h2 := hl (temper (wordAt ws (degree + 2 * k + 1)))
  simp only [drawOf]
  omega

end LinearProgram.Twister
