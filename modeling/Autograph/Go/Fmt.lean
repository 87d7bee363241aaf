import Mathlib.Data.List.Basic

/-!
# Go's `fmt` and `strconv`, where the repository's messages go through them

Two pieces of Go's standard library shape the text of errors the repository returns.

`fmt.Errorf(format)` with no operands, as the monitor's `Handler` calls it on the text it has
built, still reads its argument as a format. `%%` prints `%`; any other verb prints a
complaint about its missing operand; a `%` with no verb after it prints `%!(NOVERB)`
(`doPrintf`, one verb at a time by `verb`, which reads the flags, an argument index, the width
and the precision in the stages `doPrintf` reads them in). Each stage reads on from where the
last one stopped, so the format's length bounds the iterations (`doPrintf_fuel`), and a text
with no `%` comes out unchanged (`sprintf_of_no_percent`).

`%q` prints a string as `strconv.Quote` does (`quote`). It escapes the double quote, the
backslash and every rune that `strconv.IsPrint` rejects. `IsPrint` is written out for Latin-1,
as its fast path is; above U+00FF it reads Unicode's tables, which are a parameter here.
-/

namespace Autograph.Go

/-! ## `doPrintf` with no operands -/

/-- The flags `doPrintf` skips after a `%`. -/
def isFlag (c : Char) : Bool := c == '#' || c == '0' || c == '+' || c == '-' || c == ' '

/-- `parsenum` from the running value `num`: whether a digit was read, and what follows the
digits. A value past `tooLarge` (`1e6`) makes it give up and skip to the end. -/
def parsenumFrom (num : Nat) (isnum : Bool) : List Char → Bool × List Char
  | c :: cs =>
    if c.isDigit then
      if num > 1000000 then (false, [])
      else parsenumFrom (num * 10 + (c.toNat - '0'.toNat)) true cs
    else (isnum, c :: cs)
  | [] => (isnum, [])

/-- `parsenum(format, i, end)`: whether a number stands at `cs`, and what follows it. -/
def parsenum (cs : List Char) : Bool × List Char := parsenumFrom 0 false cs

/-- `parseArgNumber` on a format that starts with `[`: whether `[n]` parsed, and what
follows. Without a closing `]` only the `[` is consumed. -/
def parseArgNumber (cs : List Char) : Bool × List Char :=
  if cs.length < 3 then (false, cs.drop 1)
  else
    match (cs.drop 1).span (· != ']') with
    | (digits, _ :: after) => ((parsenum digits).1 && (parsenum digits).2.isEmpty, after)
    | (_, []) => (false, cs.drop 1)

/-- `argNumber` with no operands, at `cs`: whether a `[` stood there (no index is in range,
so any `[` clears `goodArgNum`), whether an index parsed, and what follows. -/
def argNumber : List Char → Bool × Bool × List Char
  | '[' :: cs => (true, parseArgNumber ('[' :: cs))
  | cs => (false, false, cs)

/-- The width at `cs`: what it writes (a `*` asks for an operand there is not), whether an
index still counts as just parsed, and what follows. -/
def width (afterIndex : Bool) : List Char → List Char × Bool × List Char
  | '*' :: cs => ("%!(BADWIDTH)".toList, false, cs)
  | cs => ([], afterIndex, (parsenum cs).2)

/-- The precision at `cs`, read only when a rune follows the `.`: what it writes, whether a
`[` stood in it, whether an index still counts as just parsed, and what follows. -/
def precision (afterIndex : Bool) : List Char → List Char × Bool × Bool × List Char
  | '.' :: c :: cs =>
    match argNumber (c :: cs) with
    | (bad, _, '*' :: rest) => ("%!(BADPREC)".toList, bad, false, rest)
    | (bad, found, rest) => ([], bad, found, (parsenum rest).2)
  | cs => ([], false, afterIndex, cs)

/-- One verb after its `%`, with no operands: what `doPrintf` writes for it, and the rest of
the format. The flags, the argument indices, the width and the precision are parsed as
`doPrintf` parses them; only the complaints they raise reach the output. -/
def verb (cs : List Char) : List Char × List Char :=
  let (bad₁, afterIndex, cs) := argNumber (cs.dropWhile isFlag)
  let (out₁, afterIndex, cs) := width afterIndex cs
  let (out₂, bad₂, afterIndex, cs) := precision afterIndex cs
  let (bad₃, _, cs) := if afterIndex then (false, false, cs) else argNumber cs
  let out := out₁ ++ out₂
  match cs with
  | [] => (out ++ "%!(NOVERB)".toList, [])
  | v :: rest =>
    if v = '%' then (out ++ ['%'], rest)
    else if bad₁ || bad₂ || bad₃ then (out ++ '%' :: '!' :: v :: "(BADINDEX)".toList, rest)
    else (out ++ '%' :: '!' :: v :: "(MISSING)".toList, rest)

/-- `doPrintf(format, a)` with no operands, on the format's runes. `fuel` bounds the
iterations; the format's length is enough, as each one consumes a rune
(`doPrintf_fuel`). -/
def doPrintf : Nat → List Char → List Char
  | 0, _ => []
  | _ + 1, [] => []
  | n + 1, c :: cs =>
    if c = '%' then (verb cs).1 ++ doPrintf n (verb cs).2 else c :: doPrintf n cs

/-- `fmt.Sprintf(format)` with no operands: the text `fmt.Errorf(format)` also makes. -/
def sprintf (format : String) : String := ⟨doPrintf format.length format.toList⟩

/-! ### Each stage reads on from where the last stopped -/

theorem parsenumFrom_suffix :
    ∀ (num : Nat) (isnum : Bool) (cs : List Char), (parsenumFrom num isnum cs).2 <:+ cs
  | _, _, [] => List.suffix_refl _
  | num, isnum, c :: cs => by
    unfold parsenumFrom
    split_ifs
    · exact List.nil_suffix
    · exact (parsenumFrom_suffix _ _ cs).trans (List.suffix_cons _ _)
    · exact List.suffix_refl _

theorem parsenum_suffix (cs : List Char) : (parsenum cs).2 <:+ cs := parsenumFrom_suffix 0 false cs

theorem parseArgNumber_suffix (cs : List Char) : (parseArgNumber cs).2 <:+ cs := by
  have hdrop := List.drop_suffix 1 cs
  unfold parseArgNumber
  split
  · exact hdrop
  · split
    · rename_i h
      rw [List.span_eq_take_drop, Prod.mk.injEq] at h
      have hrest := h.2 ▸ (List.dropWhile_suffix _ (l := cs.drop 1))
      exact (List.suffix_cons _ _).trans (hrest.trans hdrop)
    · exact hdrop

theorem argNumber_suffix (cs : List Char) : (argNumber cs).2.2 <:+ cs := by
  unfold argNumber
  split
  · exact parseArgNumber_suffix _
  · exact List.suffix_refl _

theorem width_suffix (afterIndex : Bool) (cs : List Char) : (width afterIndex cs).2.2 <:+ cs := by
  unfold width
  split
  · exact List.suffix_cons _ _
  · exact parsenum_suffix _

theorem precision_suffix (afterIndex : Bool) (cs : List Char) :
    (precision afterIndex cs).2.2.2 <:+ cs := by
  unfold precision
  split
  · rename_i c cs
    have h := (argNumber_suffix (c :: cs)).trans (List.suffix_cons '.' _)
    split <;> rename_i h' <;> rw [h'] at h
    · exact (List.suffix_cons _ _).trans h
    · exact (parsenum_suffix _).trans h
  · exact List.suffix_refl _

theorem verb_suffix (cs : List Char) : (verb cs).2 <:+ cs := by
  unfold verb
  split; rename_i b₁ a₁ r₁ e₁
  split; rename_i o₁ a₂ r₂ e₂
  split; rename_i o₂ b₂ a₃ r₃ e₃
  split; rename_i b₃ f₃ r₄ e₄
  have h₁ : r₁ <:+ cs := by
    have h := argNumber_suffix (cs.dropWhile isFlag)
    rw [e₁] at h
    exact h.trans (List.dropWhile_suffix _)
  have h₂ : r₂ <:+ r₁ := by have h := width_suffix a₁ r₁; rwa [e₂] at h
  have h₃ : r₃ <:+ r₂ := by have h := precision_suffix a₂ r₂; rwa [e₃] at h
  have h₄ : r₄ <:+ r₃ := by
    split at e₄
    · cases e₄; exact List.suffix_refl _
    · have h := argNumber_suffix r₃; rwa [e₄] at h
  have h := h₄.trans (h₃.trans (h₂.trans h₁))
  rcases r₄ with _ | ⟨v, rest⟩
  · exact List.nil_suffix
  · dsimp only
    split_ifs <;> exact (List.suffix_cons v rest).trans h

/-- **`fuel` past the format's length changes nothing**: `sprintf` runs `doPrintf` to the
end of its format. -/
theorem doPrintf_fuel :
    ∀ (n m : Nat) (cs : List Char), cs.length ≤ n → cs.length ≤ m →
      doPrintf n cs = doPrintf m cs
  | 0, m, [], _, _ => by cases m <;> rfl
  | n + 1, m, [], _, _ => by cases m <;> rfl
  | 0, _, _ :: _, h, _ => absurd h (by simp)
  | _ + 1, 0, _ :: _, _, h => absurd h (by simp)
  | n + 1, m + 1, c :: cs, hn, hm => by
    have hv := (verb_suffix cs).length_le
    simp only [List.length_cons, Nat.add_le_add_iff_right] at hn hm
    simp only [doPrintf]
    rw [doPrintf_fuel n m _ (hv.trans hn) (hv.trans hm), doPrintf_fuel n m cs hn hm]

/-- The runes before the first `%` are copied as they are. -/
theorem doPrintf_of_no_percent :
    ∀ (n : Nat) (cs : List Char), cs.length ≤ n → '%' ∉ cs → doPrintf n cs = cs
  | 0, [], _, _ => rfl
  | 0, _ :: _, h, _ => absurd h (by simp)
  | _ + 1, [], _, _ => rfl
  | n + 1, c :: cs, hl, hp => by
    simp only [List.mem_cons, not_or] at hp
    rw [doPrintf, if_neg (Ne.symm hp.1),
      doPrintf_of_no_percent n cs (Nat.le_of_succ_le_succ hl) hp.2]

/-- **A format with no `%` is printed as it is.** -/
theorem sprintf_of_no_percent {s : String} (h : '%' ∉ s.toList) : sprintf s = s := by
  obtain ⟨cs⟩ := s
  exact congrArg String.mk (doPrintf_of_no_percent _ cs (Nat.le_refl _) h)

example : sprintf "load 100%" = "load 100%!(NOVERB)" := by decide
example : sprintf "50%d of %[2]s, %*.*x, 100%%" =
    "50%!d(MISSING) of %!s(BADINDEX), %!(BADWIDTH)%!(BADPREC)%!x(MISSING), 100%" := by decide

/-! ## `%q` -/

/-- `strconv.IsPrint`. Its Latin-1 fast path is written out; above U+00FF it is `above`,
Unicode's tables. -/
def isPrint (above : Char → Bool) (r : Char) : Bool :=
  if r.toNat ≤ 0xFF then
    decide (0x20 ≤ r.toNat ∧ r.toNat ≤ 0x7E) || decide (0xA1 ≤ r.toNat ∧ r.toNat ≠ 0xAD)
  else above r

/-- The lowest `k` hexadecimal digits of `n`, most significant first, in lower case. -/
def hexDigits : Nat → Nat → List Char
  | 0, _ => []
  | k + 1, n => hexDigits k (n / 16) ++ [Nat.digitChar (n % 16)]

/-- `appendEscapedRune` for `strconv.Quote`: how one rune is written between the quotes. -/
def escapeRune (above : Char → Bool) (r : Char) : List Char :=
  if r.toNat = 0x22 ∨ r = '\\' then ['\\', r]
  else if isPrint above r then [r]
  else if r.toNat = 0x07 then "\\a".toList
  else if r.toNat = 0x08 then "\\b".toList
  else if r.toNat = 0x0C then "\\f".toList
  else if r = '\n' then "\\n".toList
  else if r = '\r' then "\\r".toList
  else if r = '\t' then "\\t".toList
  else if r.toNat = 0x0B then "\\v".toList
  else if r.toNat < 0x20 ∨ r.toNat = 0x7F then '\\' :: 'x' :: hexDigits 2 r.toNat
  else if r.toNat < 0x10000 then '\\' :: 'u' :: hexDigits 4 r.toNat
  else '\\' :: 'U' :: hexDigits 8 r.toNat

/-- `strconv.Quote`, which `%q` prints for a string. -/
def quote (above : Char → Bool) (s : String) : String :=
  ⟨Char.ofNat 0x22 :: s.toList.flatMap (escapeRune above) ++ [Char.ofNat 0x22]⟩

example : quote (fun _ => true) "a\rb\x01" = "\"a\\rb\\x01\"" := by decide

end Autograph.Go
