import Mathlib.Data.Nat.Digits.Defs
import Mathlib.Tactic.IntervalCases

/-!
# Reading and printing unsigned numbers

The kernel's `vsscanf` for formats made of literal characters, unsigned
conversions (`%u`, `%x`) and `%n`, and the text `snprintf` writes for `%u` and
`%x`, which is `Nat.toDigits`.  A conversion skips blanks, needs a digit of its
base first, skips a `0x` in base 16 (`_parse_integer_fixup_radix`), reads every
digit that follows (`_parse_integer`) and stores the value in an
`unsigned int`.  `%n` stores the number of characters read so far; it is
reached even at the end of the input.

The lemma the formats rest on: the digits `Nat.toDigits 10 n` prints, followed
by a character that is no digit, read back as `n` and stop there.
-/

namespace Scanf

/-- `isspace`. -/
def isSpace (c : Char) : Bool :=
  c = ' ' || c = '\t' || c = '\n' || c = '\x0b' || c = '\x0c' || c = '\r'

/-- The digit `_parse_integer` reads in `c`, if it is one of `base`: a decimal
digit, or a letter from `a` to `f` in either case. -/
def digitValue (base : Nat) (c : Char) : Option Nat :=
  let value :=
    if '0' ≤ c ∧ c ≤ '9' then c.toNat - '0'.toNat
    else if 'a' ≤ c ∧ c ≤ 'f' then c.toNat - 'a'.toNat + 10
    else if 'A' ≤ c ∧ c ≤ 'F' then c.toNat - 'A'.toNat + 10
    else base
  if value < base then some value else none

/-- The digits of `base` at the front of the input, read into `acc`, and what
follows them. -/
def readDigits (base : Nat) : List Char → Nat → Nat × List Char
  | [], acc => (acc, [])
  | c :: s, acc =>
    match digitValue base c with
    | some d => readDigits base s (acc * base + d)
    | none => (acc, c :: s)

/-- One character of `readDigits`: read on while it is a digit. -/
theorem readDigits_cons (base : Nat) (c : Char) (s : List Char) (acc : Nat) :
    readDigits base (c :: s) acc =
      match digitValue base c with
      | some d => readDigits base s (acc * base + d)
      | none => (acc, c :: s) := rfl

/-- One unsigned conversion: blanks, then a digit of `base`, then in base 16 an
optional `0x`, then the digits.  `none` when the conversion is not made. -/
def scanUnsigned (base : Nat) (s : List Char) : Option (Nat × List Char) :=
  match s.dropWhile isSpace with
  | [] => none
  | c :: rest =>
    if (digitValue base c).isNone then none
    else if base = 16 ∧ c = '0' ∧ (rest.head? = some 'x' ∨ rest.head? = some 'X') then
      some (readDigits base (rest.drop 1) 0)
    else some (readDigits base (c :: rest) 0)

/-- The directives of a format: a character to match, an unsigned conversion of
a base, and `%n`. -/
inductive Directive
  | literal (c : Char)
  | unsigned (base : Nat)
  | count
  deriving DecidableEq, Repr

/-- `vsscanf(buf, fmt, ...)`: the values the conversions store, in order, and
what `%n` stores, if it is reached; `consumed` is the number of characters read
before the format. -/
def vsscanf : List Directive → List Char → Nat → List UInt32 × Option Nat
  | [], _, _ => ([], none)
  | .literal c :: fmt, s, consumed =>
    match s with
    | c' :: s' => if c' = c then vsscanf fmt s' (consumed + 1) else ([], none)
    | [] => ([], none)
  | .unsigned base :: fmt, s, consumed =>
    match scanUnsigned base s with
    | none => ([], none)
    | some (value, rest) =>
      let after := vsscanf fmt rest (consumed + (s.length - rest.length))
      (UInt32.ofNat value :: after.1, after.2)
  | .count :: fmt, s, consumed =>
    let after := vsscanf fmt s consumed
    (after.1, some (after.2.getD consumed))

/-- A literal directive on a character: matched, or the end of the scan. -/
theorem vsscanf_literal_cons (c c' : Char) (fmt : List Directive) (s : List Char) (consumed : Nat) :
    vsscanf (.literal c :: fmt) (c' :: s) consumed =
      if c' = c then vsscanf fmt s (consumed + 1) else ([], none) := rfl

/-- An unsigned conversion: the value, then the rest of the format after the
characters it read. -/
theorem vsscanf_unsigned (base : Nat) (fmt : List Directive) (s : List Char) (consumed : Nat) :
    vsscanf (.unsigned base :: fmt) s consumed =
      match scanUnsigned base s with
      | none => ([], none)
      | some (value, rest) =>
        (UInt32.ofNat value :: (vsscanf fmt rest (consumed + (s.length - rest.length))).1,
          (vsscanf fmt rest (consumed + (s.length - rest.length))).2) := rfl

/-- The idiom `n = nob; sscanf(str, fmt, ..., &n) >= convs && n == nob`: the
values stored when at least `convs` conversions are made and the format ends
after exactly `nob` characters (or never reaches its `%n`). -/
def scanExactly (fmt : List Directive) (convs : Nat) (str : List Char) (nob : Nat) : Option (List UInt32) :=
  let (values, counted) := vsscanf fmt str 0
  if convs ≤ values.length ∧ counted.getD nob = nob then some values else none

theorem scanExactly_eq (fmt : List Directive) (convs : Nat) (str : List Char) (nob : Nat) :
    scanExactly fmt convs str nob =
      match vsscanf fmt str 0 with
      | (values, counted) =>
        if convs ≤ values.length ∧ counted.getD nob = nob then some values else none := rfl

/-! ## Digits -/

/-- No digit of `base` comes first. -/
def Stops (base : Nat) (s : List Char) : Prop := ∀ c, s.head? = some c → digitValue base c = none

theorem stops_nil (base : Nat) : Stops base [] := fun _ none => nomatch none

/-- One step of `Nat.toDigitsCore`: the last digit goes in front of `acc`. -/
theorem toDigitsCore_succ (fuel n : Nat) (acc : List Char) :
    Nat.toDigitsCore 10 (fuel + 1) n acc =
      if n / 10 = 0 then Nat.digitChar (n % 10) :: acc
      else Nat.toDigitsCore 10 fuel (n / 10) (Nat.digitChar (n % 10) :: acc) := rfl

theorem digitValue_digitChar {d : Nat} (digit : d < 10) : digitValue 10 (Nat.digitChar d) = some d := by
  interval_cases d <;> rfl

theorem isSpace_digitChar {d : Nat} (digit : d < 10) : isSpace (Nat.digitChar d) = false := by
  interval_cases d <;> rfl

theorem readDigits_of_stops {base : Nat} {s : List Char} (stops : Stops base s) (acc : Nat) :
    readDigits base s acc = (acc, s) := by
  cases s with
  | nil => rfl
  | cons c s => rw [readDigits_cons, stops c rfl]

/-- Reading the digits `Nat.toDigitsCore` puts before `acc` leaves the value of
those digits to be carried into `acc`. -/
theorem readDigits_toDigitsCore (tail : List Char) :
    ∀ (fuel n : Nat) (acc : List Char), n < fuel →
      readDigits 10 (Nat.toDigitsCore 10 fuel n acc ++ tail) 0 = readDigits 10 (acc ++ tail) n
  | 0, _, _, small => absurd small (Nat.not_lt_zero _)
  | fuel + 1, n, acc, small => by
    have last := digitValue_digitChar (Nat.mod_lt n (show 10 > 0 by omega))
    rw [toDigitsCore_succ]
    split
    · rename_i leading
      rw [List.cons_append, readDigits_cons, last]
      dsimp only
      rw [Nat.zero_mul, Nat.zero_add, Nat.mod_eq_of_lt (by omega)]
    · rename_i more
      rw [readDigits_toDigitsCore tail fuel (n / 10) _ (by omega), List.cons_append, readDigits_cons,
        last]
      dsimp only
      rw [Nat.div_add_mod' n 10]

theorem mem_toDigitsCore {fuel n : Nat} {acc : List Char} {c : Char} (mem : c ∈ Nat.toDigitsCore 10 fuel n acc) :
    c ∈ acc ∨ ∃ d < 10, c = Nat.digitChar d := by
  induction fuel generalizing n acc with
  | zero => exact .inl mem
  | succ fuel ih =>
    rw [toDigitsCore_succ] at mem
    have digit : ∃ d < 10, Nat.digitChar (n % 10) = Nat.digitChar d := ⟨n % 10, Nat.mod_lt n (by omega), rfl⟩
    split at mem
    · rcases List.mem_cons.mp mem with rfl | earlier
      · exact .inr digit
      · exact .inl earlier
    · rcases ih mem with earlier | printed
      · rcases List.mem_cons.mp earlier with rfl | earlier
        · exact .inr digit
        · exact .inl earlier
      · exact .inr printed

/-- Every character `%u` prints is a decimal digit. -/
theorem digit_of_mem_toDigits {n : Nat} {c : Char} (mem : c ∈ Nat.toDigits 10 n) : ∃ d < 10, c = Nat.digitChar d :=
  (mem_toDigitsCore mem).resolve_left List.not_mem_nil

theorem toDigitsCore_ne_nil {acc : List Char} (nonempty : acc ≠ []) :
    ∀ fuel n, Nat.toDigitsCore 10 fuel n acc ≠ [] := by
  intro fuel
  induction fuel generalizing acc with
  | zero => exact fun _ => nonempty
  | succ fuel ih =>
    intro n
    rw [toDigitsCore_succ]
    split
    · exact List.cons_ne_nil _ _
    · exact ih (List.cons_ne_nil _ _) _

theorem toDigits_ne_nil (n : Nat) : Nat.toDigits 10 n ≠ [] := by
  show Nat.toDigitsCore 10 (n + 1) n [] ≠ []
  rw [toDigitsCore_succ]
  split
  · exact List.cons_ne_nil _ _
  · exact toDigitsCore_ne_nil (List.cons_ne_nil _ _) _ _

/-- `%u` reads back what `%u` printed, up to the first character that is no
digit. -/
theorem scanUnsigned_toDigits (n : Nat) {rest : List Char} (stops : Stops 10 rest) :
    scanUnsigned 10 (Nat.toDigits 10 n ++ rest) = some (n, rest) := by
  obtain ⟨c, printed, text⟩ := List.exists_cons_of_ne_nil (toDigits_ne_nil n)
  obtain ⟨d, digit, rfl⟩ := digit_of_mem_toDigits (show c ∈ Nat.toDigits 10 n by rw [text]; exact List.mem_cons_self)
  have read := readDigits_toDigitsCore rest (n + 1) n [] (Nat.lt_succ_self n)
  rw [List.nil_append, readDigits_of_stops stops] at read
  rw [scanUnsigned, text, List.cons_append, List.dropWhile_cons_of_neg (by rw [isSpace_digitChar digit]; simp)]
  dsimp only
  rw [digitValue_digitChar digit, if_neg (by simp), if_neg (by simp), ← List.cons_append, ← text]
  exact congrArg some read

theorem stops_cons {base : Nat} {c : Char} (notDigit : digitValue base c = none) (s : List Char) :
    Stops base (c :: s) := by
  rintro c' ⟨⟩
  exact notDigit

/-! ## The formats -/

theorem vsscanf_literal (c : Char) (fmt : List Directive) (s : List Char) (consumed : Nat) :
    vsscanf (.literal c :: fmt) (c :: s) consumed = vsscanf fmt s (consumed + 1) := by
  rw [vsscanf_literal_cons, if_pos rfl]

theorem vsscanf_literal_of_ne {c c' : Char} (other : c' ≠ c) (fmt : List Directive) (s : List Char)
    (consumed : Nat) : vsscanf (.literal c :: fmt) (c' :: s) consumed = ([], none) := by
  rw [vsscanf_literal_cons, if_neg other]

theorem vsscanf_count (s : List Char) (consumed : Nat) : vsscanf [.count] s consumed = ([], some consumed) := rfl

/-- A `%u` conversion over printed digits stores their value and goes on after
them. -/
theorem vsscanf_unsigned_toDigits (fmt : List Directive) (n : Nat) {rest : List Char} (stops : Stops 10 rest)
    (consumed : Nat) :
    vsscanf (.unsigned 10 :: fmt) (Nat.toDigits 10 n ++ rest) consumed =
      (UInt32.ofNat n :: (vsscanf fmt rest (consumed + (Nat.toDigits 10 n).length)).1,
        (vsscanf fmt rest (consumed + (Nat.toDigits 10 n).length)).2) := by
  rw [vsscanf_unsigned, scanUnsigned_toDigits n stops]
  dsimp only
  rw [List.length_append, Nat.add_sub_cancel]

/-- The idiom of `scanExactly` holds when the conversions are made and `%n`
counts exactly `nob` characters. -/
theorem scanExactly_of_vsscanf {fmt : List Directive} {convs : Nat} {str : List Char} {nob : Nat}
    {values : List UInt32} (scanned : vsscanf fmt str 0 = (values, some nob)) (made : convs ≤ values.length) :
    scanExactly fmt convs str nob = some values := by
  rw [scanExactly_eq, scanned]
  exact if_pos ⟨made, rfl⟩

theorem scanExactly_eq_none_of_vsscanf {fmt : List Directive} {convs : Nat} {str : List Char} {nob : Nat}
    (scanned : vsscanf fmt str 0 = ([], none)) (needed : 0 < convs) : scanExactly fmt convs str nob = none := by
  rw [scanExactly_eq, scanned]
  exact if_neg fun made => absurd made.1 (by simp only [List.length_nil]; omega)

end Scanf
