import EventsCounter.Json

/-!
# JSON texts

The JSON grammar, read from left to right: `document` is the value a text stands for, `none` where it
is not a JSON text. As for RapidJSON, the encoding of a string is not looked at, the text ends at the
first NUL after the value, and a number is an integer as long as it fits in 64 bits. What double any
other number is, if it is not too big, is left to `double`.

`Spells c text` says that `text` is one of the ways to write the byte `c` in a string. A string may be
spelled in any of them (`chars_spelled`).
-/

namespace EventsCounter
namespace JsonText

def isSpace (c : UInt8) : Bool := c = 0x20 || c = 0x09 || c = 0x0A || c = 0x0D

def ws (text : Bytes) : Bytes := text.dropWhile isSpace

def token (c : UInt8) : Bytes → Option Bytes
  | [] => none
  | d :: rest => if d = c then some rest else none

/-! ### Strings -/

def hexValue (c : UInt8) : Option ℕ :=
  if 0x30 ≤ c ∧ c ≤ 0x39 then some (c.toNat - 0x30)
  else if 0x41 ≤ c ∧ c ≤ 0x46 then some (c.toNat - 0x41 + 10)
  else if 0x61 ≤ c ∧ c ≤ 0x66 then some (c.toNat - 0x61 + 10)
  else none

def hex4 (a b c d : UInt8) : Option ℕ := do
  let a ← hexValue a
  let b ← hexValue b
  let c ← hexValue c
  let d ← hexValue d
  some (((a * 16 + b) * 16 + c) * 16 + d)

def utf8 (code : ℕ) : Bytes :=
  if code < 0x80 then [UInt8.ofNat code]
  else if code < 0x800 then [UInt8.ofNat (0xC0 + code / 0x40), UInt8.ofNat (0x80 + code % 0x40)]
  else if code < 0x10000 then
    [UInt8.ofNat (0xE0 + code / 0x1000), UInt8.ofNat (0x80 + code / 0x40 % 0x40), UInt8.ofNat (0x80 + code % 0x40)]
  else
    [UInt8.ofNat (0xF0 + code / 0x40000), UInt8.ofNat (0x80 + code / 0x1000 % 0x40),
      UInt8.ofNat (0x80 + code / 0x40 % 0x40), UInt8.ofNat (0x80 + code % 0x40)]

/-- The character after a `\` stands for. -/
def shortEscape (c : UInt8) : Option UInt8 :=
  if c = 0x22 ∨ c = 0x5C ∨ c = 0x2F then some c
  else if c = 0x62 then some 0x08
  else if c = 0x66 then some 0x0C
  else if c = 0x6E then some 0x0A
  else if c = 0x72 then some 0x0D
  else if c = 0x74 then some 0x09
  else none

def prepend (s : Bytes) (parsed : Bytes × Bytes) : Bytes × Bytes := (s ++ parsed.1, parsed.2)

/-- The string whose opening quote has been read, and what is after its closing quote. -/
def chars : Bytes → Option (Bytes × Bytes)
  | [] => none
  | c :: rest =>
    if c = 0x22 then some ([], rest)
    else if c = 0x5C then
      match rest with
      | [] => none
      | e :: rest =>
        if e = 0x75 then
          match rest with
          | h₁ :: h₂ :: h₃ :: h₄ :: rest =>
            (hex4 h₁ h₂ h₃ h₄).bind fun code =>
              if 0xD800 ≤ code ∧ code < 0xDC00 then
                match rest with
                | b :: u :: l₁ :: l₂ :: l₃ :: l₄ :: rest =>
                  (hex4 l₁ l₂ l₃ l₄).bind fun low =>
                    if b = 0x5C ∧ u = 0x75 ∧ 0xDC00 ≤ low ∧ low < 0xE000 then
                      (chars rest).map (prepend (utf8 (0x10000 + (code - 0xD800) * 0x400 + (low - 0xDC00))))
                    else none
                | _ => none
              else if 0xDC00 ≤ code ∧ code < 0xE000 then none
              else (chars rest).map (prepend (utf8 code))
          | _ => none
        else (shortEscape e).bind fun c => (chars rest).map (prepend [c])
    else if c < 0x20 then none
    else (chars rest).map (prepend [c])

/-! ### Numbers -/

def isDigit (c : UInt8) : Bool := 0x30 ≤ c ∧ c ≤ 0x39

def natValue (digits : Bytes) : ℕ := Nat.ofDigits 10 (digits.reverse.map fun c => c.toNat - 0x30)

/-- A zero, or digits that do not begin with one. -/
def intPart (text : Bytes) : Option (Bytes × Bytes) :=
  match text with
  | [] => none
  | c :: rest =>
    if c = 0x30 then some ([c], rest)
    else if isDigit c then some (text.takeWhile isDigit, text.dropWhile isDigit)
    else none

/-- At least one digit after `lead`. -/
def digitsAfter (lead rest : Bytes) : Option (Bytes × Bytes) :=
  if rest.takeWhile isDigit = [] then none else some (lead ++ rest.takeWhile isDigit, rest.dropWhile isDigit)

def fracPart (text : Bytes) : Option (Bytes × Bytes) :=
  match token 0x2E text with
  | some rest => digitsAfter [0x2E] rest
  | none => some ([], text)

def expPart (text : Bytes) : Option (Bytes × Bytes) :=
  match token 0x65 text <|> token 0x45 text with
  | some rest =>
    match token 0x2D rest, token 0x2B rest with
    | some rest, _ => digitsAfter [0x65, 0x2D] rest
    | none, some rest => digitsAfter [0x65] rest
    | none, none => digitsAfter [0x65] rest
  | none => some ([], text)

variable (double : Bytes → Option UInt64)

def number (text : Bytes) : Option (Number × Bytes) := do
  let negative := (token 0x2D text).isSome
  let (int, rest) ← intPart ((token 0x2D text).getD text)
  let (frac, rest) ← fracPart rest
  let (exp, rest) ← expPart rest
  let z : ℤ := if negative then -natValue int else natValue int
  if frac = [] ∧ exp = [] ∧ -2 ^ 63 ≤ z ∧ z < 2 ^ 64 then some (.integer z, rest)
  else (double ((if negative then [0x2D] else []) ++ int ++ frac ++ exp)).map fun bits => (.double bits, rest)

/-! ### Values -/

def literal (name : Bytes) (v : Json) (text : Bytes) : Option (Json × Bytes) :=
  if name.isPrefixOf text then some (v, text.drop name.length) else none

mutual

/-- The value at the start of the text, and what is after it. The fuel bounds the nesting and the
number of members and elements: a text has fewer of them than characters. -/
def value : ℕ → Bytes → Option (Json × Bytes)
  | 0, _ => none
  | fuel + 1, text =>
    match token 0x22 text, token 0x7B text, token 0x5B text with
    | some rest, _, _ => (chars rest).map fun (s, rest) => (.string s, rest)
    | _, some rest, _ =>
      match token 0x7D (ws rest) with
      | some rest => some (.object [], rest)
      | none => (members fuel (ws rest)).map fun (members, rest) => (.object members, rest)
    | _, _, some rest =>
      match token 0x5D (ws rest) with
      | some rest => some (.array [], rest)
      | none => (elements fuel (ws rest)).map fun (elems, rest) => (.array elems, rest)
    | none, none, none =>
      literal (lit "null") .null text <|> literal (lit "true") (.bool true) text <|>
        literal (lit "false") (.bool false) text <|> (number double text).map fun (n, rest) => (.number n, rest)

def members : ℕ → Bytes → Option (List (Bytes × Json) × Bytes)
  | 0, _ => none
  | fuel + 1, text => do
    let rest ← token 0x22 text
    let (name, rest) ← chars rest
    let rest ← token 0x3A (ws rest)
    let (v, rest) ← value fuel (ws rest)
    match token 0x2C (ws rest) with
    | some rest =>
      let (members, rest) ← members fuel (ws rest)
      some ((name, v) :: members, rest)
    | none =>
      let rest ← token 0x7D (ws rest)
      some ([(name, v)], rest)

def elements : ℕ → Bytes → Option (List Json × Bytes)
  | 0, _ => none
  | fuel + 1, text => do
    let (v, rest) ← value fuel text
    match token 0x2C (ws rest) with
    | some rest =>
      let (elems, rest) ← elements fuel (ws rest)
      some (v :: elems, rest)
    | none =>
      let rest ← token 0x5D (ws rest)
      some ([v], rest)

end

def document (text : Bytes) : Option Json := do
  let (v, rest) ← value double (text.length + 1) (ws text)
  if (ws rest).head?.getD 0 = 0 then some v else none

/-! ### Writing texts -/

inductive Spells : UInt8 → Bytes → Prop
  | raw (c : UInt8) (hquote : c ≠ 0x22) (hescape : c ≠ 0x5C) (hcontrol : ¬ c < 0x20) : Spells c [c]
  | short (e c : UInt8) (h : shortEscape e = some c) : Spells c [0x5C, e]
  | hex (c h₁ h₂ h₃ h₄ : UInt8) (h : hex4 h₁ h₂ h₃ h₄ = some c.toNat) (hascii : c < 0x80) :
    Spells c [0x5C, 0x75, h₁, h₂, h₃, h₄]

/-- A number without leading zeros. -/
def decimal (n : ℕ) : Bytes := if n = 0 then [0x30] else (Nat.digits 10 n).reverse.map fun d => UInt8.ofNat (d + 0x30)

/-- The values written here. -/
inductive Scalar
  | string (s : Bytes)
  | uint64 (n : UInt64)

def Scalar.toJson : Scalar → Json
  | .string s => .string s
  | .uint64 n => .number (.integer n.toNat)

section
variable (escape : UInt8 → Bytes)

def scalarText : Scalar → Bytes
  | .string s => 0x22 :: (s.flatMap escape ++ [0x22])
  | .uint64 n => decimal n.toNat

def memberText (m : Bytes × Scalar) : Bytes := scalarText escape (.string m.1) ++ 0x3A :: scalarText escape m.2

def membersText : List (Bytes × Scalar) → Bytes
  | [] => []
  | [m] => memberText escape m
  | m :: ms => memberText escape m ++ 0x2C :: membersText ms

def objectText (ms : List (Bytes × Scalar)) : Bytes := 0x7B :: (membersText escape ms ++ [0x7D])

end

variable {double} {escape : UInt8 → Bytes} {c d : UInt8} {s text rest : Bytes} {n fuel : ℕ}

theorem chars_spells (h : Spells c text) : chars (text ++ rest) = (chars rest).map (prepend [c]) := by
  cases h with
  | raw c hquote hescape hcontrol =>
    rw [List.singleton_append, chars.eq_def]
    simp only [hquote, hescape, hcontrol, if_false]
  | short e c h =>
    have hu : e ≠ 0x75 := by
      rintro rfl
      cases h
    rw [List.cons_append, List.singleton_append, chars.eq_def]
    simp [hu, h]
  | hex c h₁ h₂ h₃ h₄ h hascii =>
    have hlt : c.toNat < 0x80 := hascii
    have hutf8 : utf8 c.toNat = [c] := by simp [utf8, hlt]
    simp only [List.cons_append, List.nil_append]
    rw [chars.eq_def]
    have hhigh : ¬ (0xD800 ≤ c.toNat ∧ c.toNat < 0xDC00) := by omega
    have hlow : ¬ (0xDC00 ≤ c.toNat ∧ c.toNat < 0xE000) := by omega
    simp [h, hhigh, hlow, hutf8]

/-- Whatever spelling is chosen for each byte, the string is read back, and nothing more is read. -/
theorem chars_spelled (hescape : ∀ c, Spells c (escape c)) (s rest : Bytes) :
    chars (s.flatMap escape ++ 0x22 :: rest) = some (s, rest) := by
  induction s with
  | nil =>
    rw [List.flatMap_nil, List.nil_append, chars.eq_def]
    rfl
  | cons c s ih =>
    rw [List.flatMap_cons, List.append_assoc, chars_spells (hescape c), ih]
    rfl

theorem digitByte_toNat {n d : ℕ} (h : d ∈ Nat.digits 10 n) : (UInt8.ofNat (d + 0x30)).toNat = d + 0x30 := by
  have hlt : d < 10 := Nat.digits_lt_base (by decide) h
  exact UInt8.toNat_ofNat_of_lt' (by simp only [UInt8.size]; omega)

theorem natValue_decimal (n : ℕ) : natValue (decimal n) = n := by
  by_cases hn : n = 0
  · subst hn
    rfl
  · have hdigits : (Nat.digits 10 n).map (fun d => (UInt8.ofNat (d + 0x30)).toNat - 0x30) = Nat.digits 10 n := by
      refine (List.map_congr_left fun d hd => ?_).trans (List.map_id _)
      rw [digitByte_toNat hd]
      exact Nat.add_sub_cancel _ _
    rw [natValue, decimal, if_neg hn, List.map_reverse, List.map_map, List.map_reverse, List.reverse_reverse]
    show Nat.ofDigits 10 ((Nat.digits 10 n).map fun d => (UInt8.ofNat (d + 0x30)).toNat - 0x30) = n
    rw [hdigits, Nat.ofDigits_digits]

theorem isDigit_of_mem_decimal {n : ℕ} (h : c ∈ decimal n) : isDigit c = true := by
  unfold decimal at h
  split at h
  · rw [List.mem_singleton.1 h]
    rfl
  · obtain ⟨d, hd, rfl⟩ := List.mem_map.1 h
    have hmem := List.mem_reverse.1 hd
    have hlt : d < 10 := Nat.digits_lt_base (by decide) hmem
    have hbyte := digitByte_toNat hmem
    simp only [isDigit, UInt8.le_iff_toNat_le, hbyte, decide_eq_true_eq]
    exact ⟨Nat.le_add_left _ _, by show d + 48 ≤ 57; omega⟩

theorem decimal_eq_cons {n : ℕ} (hn : n ≠ 0) : ∃ c cs, decimal n = c :: cs ∧ c ≠ 0x30 := by
  have hdigits : Nat.digits 10 n ≠ [] := Nat.digits_ne_nil_iff_ne_zero.2 hn
  have hlast := Nat.getLast_digit_ne_zero 10 hn
  refine ⟨UInt8.ofNat ((Nat.digits 10 n).getLast hdigits + 0x30),
    (Nat.digits 10 n).dropLast.reverse.map fun d => UInt8.ofNat (d + 0x30), ?_, ?_⟩
  · rw [decimal, if_neg hn]
    conv_lhs => rw [← List.dropLast_append_getLast hdigits]
    simp
  · intro hzero
    have hbyte := digitByte_toNat (List.getLast_mem hdigits)
    rw [hzero] at hbyte
    have hthirty : (0x30 : UInt8).toNat = 0x30 := rfl
    omega

theorem intPart_decimal (n : ℕ) (hd : isDigit d = false) :
    intPart (decimal n ++ d :: rest) = some (decimal n, d :: rest) := by
  by_cases hn : n = 0
  · subst hn
    rfl
  · obtain ⟨c, cs, hc, hzero⟩ := decimal_eq_cons hn
    have hall : ∀ c ∈ decimal n, isDigit c = true := fun c h => isDigit_of_mem_decimal h
    have hfirst : isDigit c = true := hall c (by rw [hc]; exact List.mem_cons_self)
    have htake : (decimal n ++ d :: rest).takeWhile isDigit = decimal n := by
      rw [List.takeWhile_append_of_pos hall]
      simp [hd]
    have hdrop : (decimal n ++ d :: rest).dropWhile isDigit = d :: rest := by
      rw [List.dropWhile_append_of_pos hall]
      simp [hd]
    unfold intPart
    rw [htake, hdrop, hc]
    simp [hzero, hfirst]

theorem decimal_append (n : ℕ) (rest : Bytes) : ∃ c cs, decimal n ++ rest = c :: cs ∧ isDigit c = true := by
  by_cases hn : n = 0
  · subst hn
    exact ⟨0x30, rest, rfl, rfl⟩
  · obtain ⟨c, cs, hc, -⟩ := decimal_eq_cons hn
    exact ⟨c, cs ++ rest, by rw [hc, List.cons_append],
      isDigit_of_mem_decimal (n := n) (by rw [hc]; exact List.mem_cons_self)⟩

theorem token_decimal (hd : isDigit d = false) : token d (decimal n ++ rest) = none := by
  obtain ⟨c, cs, hc, hdigit⟩ := decimal_append n rest
  rw [hc, token, if_neg]
  rintro rfl
  rw [hd] at hdigit
  cases hdigit

theorem literal_decimal {name : Bytes} {v : Json} (hd : isDigit d = false) :
    literal (d :: name) v (decimal n ++ rest) = none := by
  obtain ⟨c, cs, hc, hdigit⟩ := decimal_append n rest
  have hne : d ≠ c := by
    rintro rfl
    rw [hd] at hdigit
    cases hdigit
  simp [literal, hc, List.isPrefixOf, hne]

/-- A number is read back where a member ends after it. -/
theorem number_decimal (hn : n < 2 ^ 64) (hd : d = 0x2C ∨ d = 0x7D) :
    number double (decimal n ++ d :: rest) = some (.integer n, d :: rest) := by
  have hnot : isDigit d = false ∧ d ≠ 0x2E ∧ d ≠ 0x65 ∧ d ≠ 0x45 := by
    rcases hd with rfl | rfl <;> decide
  obtain ⟨hdigit, hpoint, he, hE⟩ := hnot
  have hfrac : fracPart (d :: rest) = some ([], d :: rest) := by simp [fracPart, token, hpoint]
  have hexp : expPart (d :: rest) = some ([], d :: rest) := by simp [expPart, token, he, hE]
  have hsign : token 0x2D (decimal n ++ d :: rest) = none := token_decimal rfl
  simpa [number, hsign, intPart_decimal n hdigit, hfrac, hexp, natValue_decimal] using hn

/-! ### Flat objects -/

theorem ws_of_head (h : isSpace c = false) : ws (c :: rest) = c :: rest := by simp [ws, h]

@[simp] theorem token_self : token c (c :: rest) = some rest := by simp [token]

theorem token_of_ne (h : d ≠ c) : token c (d :: rest) = none := by simp [token, h]

/-- A scalar is read back where a member ends after it. -/
theorem value_scalarText (hescape : ∀ c, Spells c (escape c)) (v : Scalar) (hd : d = 0x2C ∨ d = 0x7D) :
    value double (fuel + 1) (scalarText escape v ++ d :: rest) = some (v.toJson, d :: rest) := by
  cases v with
  | string s =>
    have htext : scalarText escape (.string s) ++ d :: rest = 0x22 :: (s.flatMap escape ++ 0x22 :: d :: rest) := by
      simp [scalarText]
    rw [htext, value.eq_def]
    simp [chars_spelled hescape, Scalar.toJson]
  | uint64 n =>
    have hlits : literal (lit "null") .null (decimal n.toNat ++ d :: rest) = none ∧
        literal (lit "true") (.bool true) (decimal n.toNat ++ d :: rest) = none ∧
        literal (lit "false") (.bool false) (decimal n.toNat ++ d :: rest) = none :=
      ⟨literal_decimal rfl, literal_decimal rfl, literal_decimal rfl⟩
    have hquote : token 0x22 (decimal n.toNat ++ d :: rest) = none := token_decimal rfl
    have hobject : token 0x7B (decimal n.toNat ++ d :: rest) = none := token_decimal rfl
    have harray : token 0x5B (decimal n.toNat ++ d :: rest) = none := token_decimal rfl
    rw [scalarText, value.eq_def]
    simp [hlits, hquote, hobject, harray, number_decimal n.toNat_lt hd, Scalar.toJson]

theorem isSpace_of_isDigit (h : isDigit c = true) : isSpace c = false := by
  cases hc : isSpace c with
  | false => rfl
  | true =>
    simp only [isSpace, Bool.or_eq_true, decide_eq_true_eq] at hc
    rcases hc with ((rfl | rfl) | rfl) | rfl <;> cases h

theorem ws_scalarText (v : Scalar) (rest : Bytes) : ws (scalarText escape v ++ rest) = scalarText escape v ++ rest := by
  cases v with
  | string s => rfl
  | uint64 n =>
    obtain ⟨c, cs, hc, hdigit⟩ := decimal_append n.toNat rest
    rw [scalarText, hc, ws_of_head (isSpace_of_isDigit hdigit)]

theorem memberText_append (m : Bytes × Scalar) (rest : Bytes) :
    memberText escape m ++ rest = 0x22 :: (m.1.flatMap escape ++ 0x22 :: 0x3A :: (scalarText escape m.2 ++ rest)) := by
  simp [memberText, scalarText]

theorem membersText_cons {m m' : Bytes × Scalar} {ms : List (Bytes × Scalar)} :
    membersText escape (m :: m' :: ms) = memberText escape m ++ 0x2C :: membersText escape (m' :: ms) := rfl

theorem ws_membersText (escape : UInt8 → Bytes) (m : Bytes × Scalar) (ms : List (Bytes × Scalar)) (rest : Bytes) :
    ws (membersText escape (m :: ms) ++ rest) = membersText escape (m :: ms) ++ rest ∧
      token 0x7D (membersText escape (m :: ms) ++ rest) = none := by
  have hhead : ∃ tail, membersText escape (m :: ms) ++ rest = 0x22 :: tail := by
    cases ms with
    | nil => exact ⟨_, memberText_append m rest⟩
    | cons m' ms =>
      rw [membersText_cons, List.append_assoc]
      exact ⟨_, memberText_append m _⟩
  obtain ⟨tail, htail⟩ := hhead
  rw [htail]
  exact ⟨rfl, rfl⟩

theorem members_last (hescape : ∀ c, Spells c (escape c)) (m : Bytes × Scalar) :
    members double (fuel + 2) (memberText escape m ++ 0x7D :: rest) = some ([(m.1, m.2.toJson)], rest) := by
  rw [memberText_append, members.eq_def]
  simp [chars_spelled hescape, ws_of_head, isSpace, ws_scalarText, value_scalarText hescape, token_of_ne]

theorem members_cons (hescape : ∀ c, Spells c (escape c)) (m : Bytes × Scalar) :
    members double (fuel + 2) (memberText escape m ++ 0x2C :: rest) =
      (members double (fuel + 1) (ws rest)).map fun r => ((m.1, m.2.toJson) :: r.1, r.2) := by
  rw [memberText_append, members.eq_def]
  simp [chars_spelled hescape, ws_of_head, isSpace, ws_scalarText, value_scalarText hescape, Option.map_eq_bind]

theorem members_membersText (hescape : ∀ c, Spells c (escape c)) {ms : List (Bytes × Scalar)} (hne : ms ≠ [])
    (hfuel : ms.length < fuel) :
    members double fuel (membersText escape ms ++ 0x7D :: rest) = some (ms.map fun m => (m.1, m.2.toJson), rest) := by
  induction ms generalizing fuel with
  | nil => exact absurd rfl hne
  | cons m ms ih =>
    obtain ⟨fuel, rfl⟩ : ∃ k, fuel = k + 2 := ⟨fuel - 2, by rw [List.length_cons] at hfuel; omega⟩
    cases ms with
    | nil => exact members_last hescape m
    | cons m' ms =>
      have htext : membersText escape (m :: m' :: ms) ++ 0x7D :: rest =
          memberText escape m ++ 0x2C :: (membersText escape (m' :: ms) ++ 0x7D :: rest) := by
        simp [membersText_cons]
      rw [htext, members_cons hescape, (ws_membersText _ _ _ _).1, ih (List.cons_ne_nil _ _) (Nat.lt_of_succ_lt_succ hfuel)]
      rfl

theorem length_le_membersText (escape : UInt8 → Bytes) (ms : List (Bytes × Scalar)) : ms.length ≤ (membersText escape ms).length := by
  induction ms with
  | nil => exact Nat.le_refl _
  | cons m ms ih =>
    cases ms with
    | nil =>
      simp [membersText, memberText]
      omega
    | cons m' ms =>
      simp only [membersText, List.length_append, List.length_cons] at ih ⊢
      omega

/-- An object of scalars is read back, whatever spelling its strings have. -/
theorem document_objectText (hescape : ∀ c, Spells c (escape c)) {ms : List (Bytes × Scalar)} (hne : ms ≠ []) :
    document double (objectText escape ms) = some (.object (ms.map fun m => (m.1, m.2.toJson))) := by
  have hfuel : ms.length < (membersText escape ms ++ [0x7D]).length + 1 := by
    have := length_le_membersText escape ms
    simp
    omega
  obtain ⟨m, ms, rfl⟩ := List.exists_cons_of_ne_nil hne
  obtain ⟨hws, htoken⟩ := ws_membersText escape m ms [0x7D]
  rw [document, objectText, ws_of_head rfl, List.length_cons, value.eq_def]
  simp only [token_self, token_of_ne (show (0x7B : UInt8) ≠ 0x22 by decide), hws, htoken,
    members_membersText hescape hne hfuel]
  rfl

end JsonText
end EventsCounter
