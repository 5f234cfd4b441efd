/-!
# Names beyond ASCII

A host name with characters beyond ASCII has a form in ASCII: its ASCII characters, then for every
other character, in ascending order, how many places to move on before it is put in. The steps are
numbers of variable length in base 36 whose digit bounds adapt to the steps so far.
-/

namespace Timetable.Url.Punycode

/-- The character of a digit in base 36. -/
def digit (d : Nat) : Char := if d < 26 then Char.ofNat (97 + d) else Char.ofNat (22 + d)

/-- The bound of the digit at position `k` (a multiple of 36). -/
def bound (k bias : Nat) : Nat := if k ≤ bias then 1 else min 26 (k - bias)

theorem bound_pos (k bias : Nat) : 1 ≤ bound k bias := by unfold bound; split <;> omega

/-- Divides a step by 35 until it is small, and counts 36 for every time. -/
def shrink (delta k : Nat) : Nat × Nat :=
  if 455 < delta then shrink (delta / 35) (k + 36) else (delta, k)
termination_by delta

/-- The bias behind a step; `count` characters have been put in. -/
def adapt (delta count : Nat) (first : Bool) : Nat :=
  let delta := if first then delta / 700 else delta / 2
  let (delta, k) := shrink (delta + delta / count) 0
  k + 36 * delta / (delta + 38)

/-- The digits of a step, from position `k` on. -/
def step (q k bias : Nat) : List Char :=
  if bound k bias ≤ q then
    digit (bound k bias + (q - bound k bias) % (36 - bound k bias)) ::
      step ((q - bound k bias) / (36 - bound k bias)) (k + 36) bias
  else [digit q]
termination_by q
decreasing_by
  have := bound_pos k bias
  have := Nat.div_le_self (q - bound k bias) (36 - bound k bias)
  omega

/-- The state of an encoding: the character up to which everything has been put in, the places that
have been passed since the last one, the bias, and the number of characters that have been put in. -/
structure State where
  next : Nat
  delta : Nat
  bias : Nat
  count : Nat

/-- Passes over a text once and writes a step for every `c` in it. -/
def pass (c initial : Nat) : List Nat → State → List Char × State
  | [], s => ([], s)
  | x :: rest, s =>
    if x < c then pass c initial rest { s with delta := s.delta + 1 }
    else if x = c then
      let digits := step s.delta 36 s.bias
      let bias := adapt s.delta (s.count + 1) (s.count = initial)
      let (more, s) := pass c initial rest { s with delta := 0, bias := bias, count := s.count + 1 }
      (digits ++ more, s)
    else pass c initial rest s

/-- Writes the steps for the characters of `larger`, which ascend. -/
def steps (initial : Nat) (s : List Nat) : List Nat → State → List Char
  | [], _ => []
  | c :: larger, state =>
    let state := { state with delta := state.delta + (c - state.next) * (state.count + 1) }
    let (digits, state) := pass c initial s { state with next := c }
    digits ++ steps initial s larger { state with next := c + 1, delta := state.delta + 1 }

/-- The ASCII form of one part of a name. A part in ASCII stays as it is. -/
def encode (s : List Char) : List Char :=
  let basic := s.filter (·.toNat < 128)
  if basic.length = s.length then s
  else
    let codes := s.map Char.toNat
    let larger := ((codes.filter (128 ≤ ·)).mergeSort (· ≤ ·)).eraseDups
    let mark := if basic.isEmpty then [] else ['-']
    "xn--".toList ++ basic ++ mark
      ++ steps basic.length codes larger ⟨128, 0, 72, basic.length⟩

end Timetable.Url.Punycode
