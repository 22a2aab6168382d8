import Mailbag.Collections.Positional
import Mailbag.Folders.MailboxNames
import Mathlib.Tactic.Ring

/-!
# Modified UTF-7

How a server writes a mailbox name (RFC 3501, section 5.1.3): printable ASCII stands for
itself, `&-` is `&`, and every run of other characters is `&`, its UTF-16 in base64 with `,`
for `/` and no padding, and `-`.

## What is proved

* `codeUnits_eq_regroup` — the values of a group are one number, written in base 64 and read
  in base 65536.
* `decodeGroups_encode` — reading a name undoes writing it.
* `decodeGroups_eq_none_iff` — which names are not read.
-/

namespace Mailbag.Folders

open Collections

/-! ### The bits of a group -/

/-- The code units in the lowest `total` bits of a number, unless six or more bits are left
over, or a bit that is set. -/
def regroup (total n : ℕ) : Option (List ℕ) :=
  if 6 ≤ total % 16 ∨ n % 2 ^ (total % 16) ≠ 0 then none
  else some (digits 65536 (total / 16) (n / 2 ^ (total % 16)))

theorem regroup_add {total unit n : ℕ} (hunit : unit < 65536) (hn : n < 2 ^ total) :
    regroup (total + 16) (unit * 2 ^ total + n) = (regroup total n).map (unit :: ·) := by
  have hleft : (total + 16) % 16 = total % 16 := by omega
  have hcount : (total + 16) / 16 = total / 16 + 1 := by omega
  have hpow : 2 ^ total = 65536 ^ (total / 16) * 2 ^ (total % 16) := by
    rw [show (65536 : ℕ) = 2 ^ 16 by norm_num, ← pow_mul, ← pow_add, Nat.div_add_mod]
  have hpos : 0 < 2 ^ (total % 16) := Nat.two_pow_pos _
  have hsplit : unit * 2 ^ total + n = 2 ^ (total % 16) * (unit * 65536 ^ (total / 16)) + n := by
    rw [hpow]
    ring
  have hmod : (unit * 2 ^ total + n) % 2 ^ (total % 16) = n % 2 ^ (total % 16) := by
    rw [hsplit, Nat.mul_add_mod]
  have hdiv : (unit * 2 ^ total + n) / 2 ^ (total % 16) = unit * 65536 ^ (total / 16) + n /
      2 ^ (total % 16) := by
    rw [hsplit, Nat.mul_add_div hpos]
  have hrest : n / 2 ^ (total % 16) < 65536 ^ (total / 16) := by
    refine Nat.div_lt_of_lt_mul ?_
    rwa [Nat.mul_comm, ← hpow]
  rw [regroup, regroup, hleft, hcount, hmod, hdiv, digits_head hunit hrest]
  split <;> rfl

/-- Upper bits cut in two, in front of lower ones. -/
theorem cut_upper (upper k : ℕ) {low j : ℕ} (hlow : low < 2 ^ j) :
    upper * 2 ^ j + low = upper / 2 ^ k * 2 ^ (k + j) + (upper % 2 ^ k * 2 ^ j + low) ∧
      upper % 2 ^ k * 2 ^ j + low < 2 ^ (k + j) := by
  have hmod : upper % 2 ^ k < 2 ^ k := Nat.mod_lt _ (Nat.two_pow_pos k)
  rw [pow_add]
  constructor
  · calc upper * 2 ^ j + low
        = (upper / 2 ^ k * 2 ^ k + upper % 2 ^ k) * 2 ^ j + low := by rw [Nat.div_add_mod']
      _ = upper / 2 ^ k * (2 ^ k * 2 ^ j) + (upper % 2 ^ k * 2 ^ j + low) := by ring
  · calc upper % 2 ^ k * 2 ^ j + low
        < upper % 2 ^ k * 2 ^ j + 2 ^ j := Nat.add_lt_add_left hlow _
      _ = (upper % 2 ^ k + 1) * 2 ^ j := by ring
      _ ≤ 2 ^ k * 2 ^ j := Nat.mul_le_mul_right _ hmod

/-- **The values of a group** are one number: after the bits that wait, the values in base 64. -/
theorem codeUnits_eq_regroup {group : List Char} {values : List ℕ}
    (hvalues : group.map base64Value = values.map some) (hlt : ∀ v ∈ values, v < 64)
    {bits bitCount : ℕ} (hbits : bits < 2 ^ bitCount) (hcount : bitCount < 16) :
    codeUnits bits bitCount group =
      regroup (bitCount + 6 * values.length)
      (bits * 2 ^ (6 * values.length) + value 64 values) := by
  induction group generalizing values bits bitCount with
  | nil =>
    obtain rfl : values = [] := by simpa using hvalues.symm
    rw [codeUnits, regroup]
    simp [Nat.mod_eq_of_lt hcount, Nat.mod_eq_of_lt hbits, Nat.div_eq_of_lt hcount, digits]
  | cons character group ih =>
    cases values with
    | nil => simp at hvalues
    | cons v values =>
      rw [List.map_cons, List.map_cons, List.cons.injEq] at hvalues
      obtain ⟨hv, hvalues⟩ := hvalues
      obtain ⟨hv64, hlt⟩ := List.forall_mem_cons.mp hlt
      have hbits' : bits * 64 + v < 2 ^ (bitCount + 6) := by
        rw [pow_add]
        omega
      have hnumber : bits * 2 ^ (6 * (v :: values).length) + value 64 (v :: values) =
          (bits * 64 + v) * 2 ^ (6 * values.length) + value 64 values := by
        rw [value_cons, List.length_cons, Nat.mul_succ, pow_add, pow_mul 2 6]
        ring
      have hrest : value 64 values < 2 ^ (6 * values.length) := by
        rw [pow_mul]
        exact value_lt (by decide) hlt
      rw [codeUnits, hv, hnumber]
      simp only [Option.bind_eq_bind, Option.bind_some, Option.pure_def]
      split
      · rename_i h16
        obtain ⟨hcut, hcutLt⟩ := cut_upper (bits * 64 + v) (bitCount + 6 - 16) hrest
        have hunit : (bits * 64 + v) / 2 ^ (bitCount + 6 - 16) < 65536 := by
          refine Nat.div_lt_of_lt_mul ?_
          rwa [show (65536 : ℕ) = 2 ^ 16 by norm_num, ← pow_add, Nat.sub_add_cancel h16]
        have htotal : bitCount + 6 * (v :: values).length =
            (bitCount + 6 - 16 + 6 * values.length) + 16 := by
          rw [List.length_cons]
          omega
        rw [ih hvalues hlt (Nat.mod_lt _ (Nat.two_pow_pos _)) (by omega), htotal, hcut,
          regroup_add hunit hcutLt]
        cases regroup _ _ <;> rfl
      · rw [ih hvalues hlt hbits' (by omega), List.length_cons]
        congr 1
        omega

/-! ### UTF-16 -/

/-- The code units of a character: one, or a surrogate pair. -/
def utf16 (character : Char) : List ℕ :=
  if character.toNat < 0x10000 then [character.toNat]
  else [0xD800 + (character.toNat - 0x10000) / 0x400, 0xDC00 + (character.toNat - 0x10000) % 0x400]

theorem toNat_lt (character : Char) : character.toNat < 0x110000 := by
  have := character.valid
  rcases this with h | ⟨-, h⟩
  · exact h.trans (by decide)
  · exact h

theorem not_surrogate (character : Char) :
    ¬(0xD800 ≤ character.toNat ∧ character.toNat < 0xE000) := by
  have := character.valid
  rcases this with h | ⟨h, -⟩
  · intro ⟨h', _⟩
    exact absurd h (Nat.not_lt.mpr h')
  · intro ⟨_, h'⟩
    have h : 0xDFFF < character.toNat := h
    omega

theorem fromUtf16_single {unit : ℕ} (units : List ℕ) (h : ¬(0xD800 ≤ unit ∧ unit < 0xE000)) :
    fromUtf16 (unit :: units) = (fromUtf16 units).map (Char.ofNat unit :: ·) := by
  have hhigh : ¬(0xD800 ≤ unit ∧ unit < 0xDC00) := by omega
  have hlow : ¬(0xDC00 ≤ unit ∧ unit < 0xE000) := by omega
  cases units with
  | nil => rw [fromUtf16.eq_3, if_neg hhigh, if_neg hlow]
  | cons => rw [fromUtf16.eq_2, if_neg hhigh, if_neg hlow]

theorem fromUtf16_pair {high low : ℕ} (units : List ℕ) (hhigh : 0xD800 ≤ high ∧ high < 0xDC00)
    (hlow : 0xDC00 ≤ low ∧ low < 0xE000) :
    fromUtf16 (high :: low :: units) =
      (fromUtf16 units).map (Char.ofNat (0x10000 + (high - 0xD800) * 0x400 + (low - 0xDC00)) ::
        ·) := by
  rw [fromUtf16.eq_2, if_pos hhigh, if_pos hlow]

/-- A character's code units are read back. -/
theorem fromUtf16_utf16 (character : Char) (units : List ℕ) :
    fromUtf16 (utf16 character ++ units) = (fromUtf16 units).map (character :: ·) := by
  have hlt := toNat_lt character
  have hsurrogate := not_surrogate character
  rw [utf16]
  split
  · rw [List.singleton_append, fromUtf16_single units hsurrogate, Char.ofNat_toNat]
  · have hback : 0x10000 + (0xD800 + (character.toNat - 0x10000) / 0x400 - 0xD800) * 0x400 +
        (0xDC00 + (character.toNat - 0x10000) % 0x400 - 0xDC00) = character.toNat := by omega
    rw [List.cons_append, List.singleton_append, fromUtf16_pair units (by omega) (by omega), hback,
      Char.ofNat_toNat]

/-- **UTF-16 is read back.** -/
theorem fromUtf16_flatMap (text : List Char) : fromUtf16 (text.flatMap utf16) = some text := by
  induction text with
  | nil => rfl
  | cons character text ih => rw [List.flatMap_cons, fromUtf16_utf16, ih, Option.map_some]

/-- A number that is no surrogate is the code point of its character. -/
theorem toNat_ofNat {n : ℕ} (h : n < 0xD800 ∨ 0xDFFF < n ∧ n < 0x110000) :
    (Char.ofNat n).toNat = n := by
  rw [Char.ofNat, dif_pos h]
  rfl

/-- What is read is what the code units encode. -/
theorem flatMap_of_fromUtf16 {units : List ℕ} (hunits : ∀ unit ∈ units, unit < 65536)
    {text : List Char} (h : fromUtf16 units = some text) : text.flatMap utf16 = units := by
  induction units using fromUtf16.induct generalizing text with
  | case1 =>
    cases h
    rfl
  | case2 high hhigh low units hlow ih =>
    rw [fromUtf16_pair units hhigh hlow, Option.map_eq_some_iff] at h
    obtain ⟨rest, hrest, rfl⟩ := h
    have hback : (Char.ofNat (0x10000 + (high - 0xD800) * 0x400 + (low - 0xDC00))).toNat =
        0x10000 + (high - 0xD800) * 0x400 + (low - 0xDC00) := toNat_ofNat (by omega)
    have hfirst : 0xD800 + (0x10000 + (high - 0xD800) * 0x400 + (low - 0xDC00) - 0x10000) / 0x400 =
        high := by omega
    have hsecond : 0xDC00 + (0x10000 + (high - 0xD800) * 0x400 + (low - 0xDC00) - 0x10000) % 0x400 =
        low := by omega
    rw [List.flatMap_cons, ih (fun unit hunit => hunits unit (by simp [hunit])) hrest, utf16, hback,
      if_neg (by omega), hfirst, hsecond]
    rfl
  | case3 high hhigh low units hlow =>
    rw [fromUtf16.eq_2, if_pos hhigh, if_neg hlow] at h
    cases h
  | case4 high hhigh =>
    rw [fromUtf16.eq_3, if_pos hhigh] at h
    cases h
  | case5 unit units hhigh hlow =>
    cases units <;> simp [fromUtf16, hhigh, hlow] at h
  | case6 unit units hhigh hlow ih =>
    obtain ⟨hunit, hunits⟩ := List.forall_mem_cons.mp hunits
    rw [fromUtf16_single units (by omega), Option.map_eq_some_iff] at h
    obtain ⟨rest, hrest, rfl⟩ := h
    rw [List.flatMap_cons, ih hunits hrest, utf16, toNat_ofNat (by omega), if_pos hunit]
    rfl

/-! ### Writing a name -/

/-- The characters of modified base64, by their six bits. -/
def base64Alphabet : List Char :=
  "ABCDEFGHIJKLMNOPQRSTUVWXYZabcdefghijklmnopqrstuvwxyz0123456789+,".toList

/-- The characters of some code units: their bits, with zeros up to a multiple of six. -/
def modifiedBase64 (units : List ℕ) : List Char :=
  (digits 64 ((16 * units.length + 5) / 6)
    (value 65536 units * 2 ^ (6 * ((16 * units.length + 5) / 6) - 16 * units.length))).map fun v =>
      base64Alphabet.getD v 'A'

/-- Printable ASCII stands for itself. -/
def IsPrintable (character : Char) : Prop := 0x20 ≤ character.toNat ∧ character.toNat ≤ 0x7E

instance (character : Char) : Decidable (IsPrintable character) :=
  inferInstanceAs (Decidable (_ ∧ _))

/-- A run of other characters. -/
def encodeRun : List Char → List Char
  | [] => []
  | character :: run => '&' :: (modifiedBase64 ((character :: run).flatMap utf16) ++ ['-'])

/-- The rest of a name, after a run of other characters. -/
def encodeAfter (run : List Char) : List Char → List Char
  | [] => encodeRun run
  | character :: text =>
    if IsPrintable character then
      encodeRun run ++ ((if character = '&' then ['&', '-']
        else [character]) ++ encodeAfter [] text)
    else encodeAfter (run ++ [character]) text

/-- The name in modified UTF-7. -/
def encode (text : String) : String := String.ofList (encodeAfter [] text.toList)

-- The example of RFC 3501, section 5.1.3.
example : encode "~peter/mail/台北/日本語" = "~peter/mail/&U,BTFw-/&ZeVnLIqe-" := by decide +kernel

theorem base64Value_getD : ∀ v < 64, base64Value (base64Alphabet.getD v 'A') = some v := by
  decide +kernel

theorem ascii_of_mem_alphabet (character : Char) (h : character ∈ base64Alphabet) :
    character.toNat < 128 := by
  have hall : base64Alphabet.all (fun character => character.toNat < 128) = true := by decide
  exact of_decide_eq_true (List.all_eq_true.mp hall character h)

theorem base64Value_eq (character : Char) :
    base64Value character = if character ∈ base64Alphabet then some (base64Alphabet.idxOf character)
      else none := by
  by_cases hascii : character.toNat < 128
  · have hall : ∀ n < 128, base64Value (Char.ofNat n) =
        if Char.ofNat n ∈ base64Alphabet then some (base64Alphabet.idxOf (Char.ofNat n))
            else none := by decide +kernel
    have hcharacter := hall character.toNat hascii
    rwa [Char.ofNat_toNat] at hcharacter
  · have hle : ∀ bound : Char, bound.toNat < 128 → ¬character ≤ bound := by
      intro bound hbound hle
      have : character.toNat ≤ bound.toNat := hle
      omega
    have hne : ∀ other : Char, other.toNat < 128 → character ≠ other := by
      rintro other hother rfl
      exact hascii hother
    rw [base64Value, if_neg fun h => hle 'Z' (by decide) h.2,
      if_neg fun h => hle 'z' (by decide) h.2, if_neg fun h => hle '9' (by decide) h.2,
      if_neg (hne '+' (by decide)), if_neg (hne ',' (by decide)),
      if_neg fun h => hascii (ascii_of_mem_alphabet _ h)]

/-- **The bits of code units** are read back from their characters. -/
theorem codeUnits_modifiedBase64 {units : List ℕ} (h : ∀ unit ∈ units, unit < 65536) :
    codeUnits 0 0 (modifiedBase64 units) = some units := by
  have hvalue : value 65536 units < 2 ^ (16 * units.length) := by
    rw [pow_mul]
    exact value_lt (by decide) h
  rw [modifiedBase64]
  generalize hk : (16 * units.length + 5) / 6 = k
  generalize hpad : 6 * k - 16 * units.length = pad
  have htotal : 6 * k = 16 * units.length + pad := by omega
  have hlt : value 65536 units * 2 ^ pad < 64 ^ k := by
    have hpow : (64 : ℕ) ^ k = 2 ^ (6 * k) := (pow_mul 2 6 k).symm
    rw [hpow, htotal, pow_add]
    exact Nat.mul_lt_mul_of_pos_right hvalue (Nat.two_pow_pos pad)
  have hdigits := digits_lt (b := 64) (by decide) k (value 65536 units * 2 ^ pad)
  have hvalues : ((digits 64 k (value 65536 units * 2 ^ pad)).map fun v =>
    base64Alphabet.getD v 'A').map base64Value =
      (digits 64 k (value 65536 units * 2 ^ pad)).map some := by
    rw [List.map_map]
    exact List.map_congr_left fun v hv => base64Value_getD v (hdigits v hv)
  rw [codeUnits_eq_regroup hvalues hdigits (by decide) (by decide), value_digits hlt, length_digits,
    Nat.zero_mul, Nat.zero_add, Nat.zero_add, regroup]
  have hleft : 6 * k % 16 = pad := by omega
  have hcount : 6 * k / 16 = units.length := by omega
  rw [hleft, hcount, if_neg (by rw [Nat.mul_mod_left]; omega),
    Nat.mul_div_cancel _ (Nat.two_pow_pos pad), digits_value h]

/-! ### Reading a name -/

/-- The text of a group; the empty one stands for `&`. -/
def groupText (group : List Char) : Option (List Char) :=
  if group = [] then some ['&'] else decodeUtf16Group group

theorem dropWhile_ne {character : Char} {front : List Char} (h : character ∉ front)
    (rest : List Char) :
    (front ++ character :: rest).dropWhile (· ≠ character) = character :: rest ∧
      (front ++ character :: rest).takeWhile (· ≠ character) = front := by
  have hfront : ∀ c ∈ front, decide (c ≠ character) = true := fun c hc => by
    simpa using fun he : c = character => h (he ▸ hc)
  constructor
  · rw [List.dropWhile_append_of_pos hfront]
    simp
  · rw [List.takeWhile_append_of_pos hfront]
    simp

theorem dropWhile_ne_eq_nil {character : Char} {text : List Char} (h : character ∉ text) :
    text.dropWhile (· ≠ character) = [] := by
  have htext : ∀ c ∈ text, decide (c ≠ character) = true := fun c hc => by
    simpa using fun he : c = character => h (he ▸ hc)
  rw [← List.append_nil text, List.dropWhile_append_of_pos htext]
  rfl

theorem decodeGroups_plain {plain : List Char} (h : '&' ∉ plain) :
    decodeGroups plain = some plain := by
  rw [decodeGroups]
  split
  · rfl
  · rename_i hdrop
    rw [dropWhile_ne_eq_nil h] at hdrop
    cases hdrop

theorem decodeGroups_unended {plain tail : List Char} (hplain : '&' ∉ plain) (htail : '-' ∉ tail) :
    decodeGroups (plain ++ '&' :: tail) = none := by
  rw [decodeGroups]
  split
  · rename_i hdrop
    rw [(dropWhile_ne hplain tail).1] at hdrop
    cases hdrop
  · rename_i hdrop
    rw [(dropWhile_ne hplain tail).1] at hdrop
    cases hdrop
    split
    · rfl
    · rename_i hdrop
      rw [dropWhile_ne_eq_nil htail] at hdrop
      cases hdrop

/-- **A group** and what comes after it. -/
theorem decodeGroups_group {plain group : List Char} (hplain : '&' ∉ plain) (hgroup : '-' ∉ group)
    (after : List Char) :
    decodeGroups (plain ++ '&' :: (group ++ '-' :: after)) =
      (groupText group).bind fun text => (decodeGroups after).map fun rest => plain ++ text ++
      rest := by
  rw [decodeGroups]
  split
  · rename_i hdrop
    rw [(dropWhile_ne hplain _).1] at hdrop
    cases hdrop
  · rename_i hdrop
    rw [(dropWhile_ne hplain _).1] at hdrop
    cases hdrop
    split
    · rename_i hdrop
      rw [(dropWhile_ne hgroup _).1] at hdrop
      cases hdrop
    · rename_i hdrop
      rw [(dropWhile_ne hgroup _).1] at hdrop
      cases hdrop
      rw [(dropWhile_ne hplain _).2, (dropWhile_ne hgroup _).2, groupText]
      by_cases hnil : group = [] <;> cases decodeGroups after <;> simp [hnil]

/-- A name without `&`; or what comes before one, and a tail without an end; or a group and
what comes after it. -/
theorem name_induction {P : List Char → Prop} (hplain : ∀ plain, '&' ∉ plain → P plain)
    (hunended : ∀ plain tail, '&' ∉ plain → '-' ∉ tail → P (plain ++ '&' :: tail))
    (hgroup : ∀ plain group after, '&' ∉ plain → '-' ∉ group → P after →
      P (plain ++ '&' :: (group ++ '-' :: after)))
    (name : List Char) : P name := by
  by_cases hname : '&' ∈ name
  · obtain ⟨plain, tail, hsplit, hfirst⟩ := List.eq_append_cons_of_mem hname
    by_cases htail : '-' ∈ tail
    · obtain ⟨group, after, hsplit', hgroup'⟩ := List.eq_append_cons_of_mem htail
      have hshorter : after.length < name.length := by
        rw [hsplit, hsplit']
        simp only [List.length_append, List.length_cons]
        omega
      rw [hsplit, hsplit']
      exact hgroup plain group after hfirst hgroup' (name_induction hplain hunended hgroup after)
    · rw [hsplit]
      exact hunended plain tail hfirst htail
  · exact hplain name hname
termination_by name.length

theorem decodeGroups_cons {character : Char} (h : character ≠ '&') (name : List Char) :
    decodeGroups (character :: name) = (decodeGroups name).map (character :: ·) := by
  have hfront : ∀ {plain : List Char}, '&' ∉ plain → '&' ∉ character :: plain := fun hplain hmem =>
    (List.mem_cons.mp hmem).elim (fun he => h he.symm) hplain
  induction name using name_induction with
  | hplain plain hplain =>
    rw [decodeGroups_plain hplain, decodeGroups_plain (hfront hplain), Option.map_some]
  | hunended plain tail hplain htail =>
    rw [decodeGroups_unended hplain htail, ← List.cons_append,
      decodeGroups_unended (hfront hplain) htail, Option.map_none]
  | hgroup plain group after hplain hgroup _ =>
    rw [decodeGroups_group hplain hgroup, ← List.cons_append,
      decodeGroups_group (hfront hplain) hgroup]
    cases groupText group <;> cases decodeGroups after <;> rfl

theorem dash_notMem_modifiedBase64 {units : List ℕ} : '-' ∉ modifiedBase64 units := by
  intro hmem
  obtain ⟨v, hv, hdash⟩ := List.mem_map.mp hmem
  have hall : ∀ v < 64, base64Alphabet.getD v 'A' ≠ '-' := by decide +kernel
  exact hall v (digits_lt (by decide) _ _ v hv) hdash

theorem utf16_lt (character : Char) : ∀ unit ∈ utf16 character, unit < 65536 := by
  have := toNat_lt character
  rw [utf16]
  split
  · exact List.forall_mem_singleton.mpr ‹_›
  · exact List.forall_mem_cons.mpr ⟨by omega, List.forall_mem_singleton.mpr (by omega)⟩

theorem decodeGroups_encodeRun (run name : List Char) :
    decodeGroups (encodeRun run ++ name) = (decodeGroups name).map (run ++ ·) := by
  cases run with
  | nil => simp [encodeRun]
  | cons character run =>
    have hunits : ∀ unit ∈ (character :: run).flatMap utf16, unit < 65536 := by
      intro unit hunit
      obtain ⟨c, -, hc⟩ := List.mem_flatMap.mp hunit
      exact utf16_lt c unit hc
    have hne : modifiedBase64 ((character :: run).flatMap utf16) ≠ [] := by
      intro hnil
      have hback := codeUnits_modifiedBase64 hunits
      rw [hnil] at hback
      have htext := fromUtf16_flatMap (character :: run)
      rw [← Option.some.inj hback] at htext
      cases htext
    have hgroup : groupText (modifiedBase64 ((character :: run).flatMap utf16)) =
        some (character :: run) := by
      rw [groupText, if_neg hne, decodeUtf16Group, codeUnits_modifiedBase64 hunits]
      exact fromUtf16_flatMap (character :: run)
    have happend : encodeRun (character :: run) ++ name =
        [] ++ '&' :: (modifiedBase64 ((character :: run).flatMap utf16) ++ '-' :: name) := by
      simp [encodeRun]
    rw [happend, decodeGroups_group List.not_mem_nil dash_notMem_modifiedBase64, hgroup,
      Option.bind_some]
    rfl

theorem decodeGroups_encodeAfter (run text : List Char) :
    decodeGroups (encodeAfter run text) = some (run ++ text) := by
  induction text generalizing run with
  | nil =>
    have hrun := decodeGroups_encodeRun run []
    rw [List.append_nil, decodeGroups_plain List.not_mem_nil, Option.map_some] at hrun
    rw [encodeAfter, hrun]
  | cons character text ih =>
    rw [encodeAfter]
    split
    · rw [decodeGroups_encodeRun]
      split
      · rename_i hand
        have hnone : ∀ c : Char, c ∉ ([] : List Char) := fun _ => List.not_mem_nil
        have hgroup := decodeGroups_group (hnone '&') (hnone '-') (encodeAfter [] text)
        rw [ih] at hgroup
        have hname : ['&', '-'] ++ encodeAfter [] text = [] ++ '&' ::
            ([] ++ '-' :: encodeAfter [] text) := rfl
        rw [hname, hgroup, hand]
        rfl
      · rename_i hand
        rw [List.singleton_append, decodeGroups_cons hand, ih]
        rfl
    · rw [ih, List.append_assoc, List.singleton_append]

/-- **Reading undoes writing.** -/
theorem decodeGroups_encode (text : String) :
    decodeGroups (encode text).toList = some text.toList := by
  rw [encode, String.toList_ofList, decodeGroups_encodeAfter, List.nil_append]

/-! ### Names that are not modified UTF-7 -/

/-- The bits of a group's characters as one number. -/
def groupValue (group : List Char) : ℕ :=
  value 64 (group.map fun character => base64Alphabet.idxOf character)

/-- The bits left over after the last whole code unit. -/
def leftOver (group : List Char) : ℕ := 6 * group.length % 16

/-- A group that is not the UTF-16 of a text in modified base64. -/
inductive BadGroup (group : List Char) : Prop
  /-- A character outside modified base64. -/
  | outside {character : Char} (hmem : character ∈ group) (h : character ∉ base64Alphabet)
  /-- Six or more bits left over. -/
  | tooMany (h : 6 ≤ leftOver group)
  /-- A bit left over that is not zero. -/
  | notZero (h : groupValue group % 2 ^ leftOver group ≠ 0)
  /-- Code units that encode no text. -/
  | notText
      (h : ∀ text : List Char, text.flatMap utf16 ≠ digits 65536 (6 * group.length / 16)
        (groupValue group / 2 ^ leftOver group))

/-- The name holds a group without an end, or a bad one. -/
inductive Broken : List Char → Prop
  /-- Without an end. -/
  | unended {plain tail : List Char} (hplain : '&' ∉ plain) (htail : '-' ∉ tail) :
      Broken (plain ++ '&' :: tail)
  /-- A bad group. -/
  | bad {plain group after : List Char} (hplain : '&' ∉ plain) (hgroup : '-' ∉ group)
      (hbad : BadGroup group) : Broken (plain ++ '&' :: (group ++ '-' :: after))
  /-- Later in the name. -/
  | later {plain group after : List Char} (hplain : '&' ∉ plain) (hgroup : '-' ∉ group)
      (hafter : Broken after) : Broken (plain ++ '&' :: (group ++ '-' :: after))

theorem codeUnits_outside {group : List Char} {character : Char} (hmem : character ∈ group)
    (h : character ∉ base64Alphabet) (bits bitCount : ℕ) :
    codeUnits bits bitCount group = none := by
  induction group generalizing bits bitCount with
  | nil => cases hmem
  | cons first group ih =>
    rw [codeUnits]
    cases hvalue : base64Value first with
    | none => rfl
    | some v =>
      have hrest : character ∈ group := by
        rcases List.mem_cons.mp hmem with rfl | hrest
        · rw [base64Value_eq, if_neg h] at hvalue
          cases hvalue
        · exact hrest
      simp only [Option.bind_eq_bind, Option.bind_some, ih hrest, Option.bind_none, ite_self]

/-- The code units of a group whose characters are all of the alphabet. -/
theorem codeUnits_inside {group : List Char} (h : ∀ character ∈ group, character ∈ base64Alphabet) :
    codeUnits 0 0 group = regroup (6 * group.length) (groupValue group) := by
  have hvalues : group.map base64Value =
      (group.map fun character => base64Alphabet.idxOf character).map some := by
    rw [List.map_map]
    refine List.map_congr_left fun character hmem => ?_
    rw [base64Value_eq, if_pos (h character hmem)]
    rfl
  have hlt : ∀ v ∈ group.map fun character => base64Alphabet.idxOf character, v < 64 := by
    intro v hv
    obtain ⟨character, hmem, rfl⟩ := List.mem_map.mp hv
    exact List.idxOf_lt_length_of_mem (h character hmem)
  rw [codeUnits_eq_regroup hvalues hlt (by decide) (by decide), List.length_map, Nat.zero_mul,
    Nat.zero_add, Nat.zero_add]
  rfl

/-- **A group has no text** when it is bad. -/
theorem groupText_eq_none_iff (group : List Char) : groupText group = none ↔ BadGroup group := by
  rw [groupText]
  by_cases hnil : group = []
  · subst hnil
    refine iff_of_false (by simp) ?_
    rintro (⟨hmem, -⟩ | h | h | h)
    · cases hmem
    · exact absurd h (by decide)
    · exact absurd h (by decide)
    · exact h [] rfl
  · rw [if_neg hnil, decodeUtf16Group]
    by_cases hinside : ∀ character ∈ group, character ∈ base64Alphabet
    · rw [codeUnits_inside hinside, regroup]
      by_cases hover : 6 ≤ 6 * group.length % 16 ∨
        groupValue group % 2 ^ (6 * group.length % 16) ≠ 0
      · rw [if_pos hover]
        exact iff_of_true rfl (hover.elim .tooMany .notZero)
      · rw [if_neg hover]
        have hunits := digits_lt (b := 65536) (by decide) (6 * group.length / 16)
          (groupValue group / 2 ^ (6 * group.length % 16))
        constructor
        · intro hnone
          refine .notText fun text htext => ?_
          have := fromUtf16_flatMap text
          rw [htext] at this
          exact absurd (this.symm.trans hnone) (by simp)
        · rintro (⟨hmem, h⟩ | h | h | h)
          · exact absurd (hinside _ hmem) h
          · exact absurd (.inl h) hover
          · exact absurd (.inr h) hover
          · refine Option.eq_none_iff_forall_ne_some.mpr fun text htext => ?_
            exact h text (flatMap_of_fromUtf16 hunits htext)
    · push Not at hinside
      obtain ⟨character, hmem, h⟩ := hinside
      rw [codeUnits_outside hmem h]
      exact iff_of_true rfl (.outside hmem h)

/-- **A name is not read** exactly when it is broken. -/
theorem decodeGroups_eq_none_iff (name : List Char) : decodeGroups name = none ↔ Broken name := by
  constructor
  · induction name using name_induction with
    | hplain plain hplain =>
      intro hnone
      rw [decodeGroups_plain hplain] at hnone
      cases hnone
    | hunended plain tail hplain htail => exact fun _ => .unended hplain htail
    | hgroup plain group after hplain hgroup ih =>
      intro hnone
      rw [decodeGroups_group hplain hgroup] at hnone
      cases htext : groupText group with
      | none => exact .bad hplain hgroup ((groupText_eq_none_iff group).mp htext)
      | some text =>
        rw [htext, Option.bind_some, Option.map_eq_none_iff] at hnone
        exact .later hplain hgroup (ih hnone)
  · intro hbroken
    induction hbroken with
    | unended hplain htail => exact decodeGroups_unended hplain htail
    | bad hplain hgroup hbad =>
      rw [decodeGroups_group hplain hgroup, (groupText_eq_none_iff _).mpr hbad, Option.bind_none]
    | @later plain group after hplain hgroup hafter ih =>
      rw [decodeGroups_group hplain hgroup, ih]
      cases groupText group <;> rfl

end Mailbag.Folders
