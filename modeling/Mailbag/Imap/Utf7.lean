import Mailbag.Collections.Slices
import Mailbag.Folders.ModifiedUtf7

/-!
# Reading mailbox names

Modified UTF-7 is read as the code reads it: with byte positions found by search, slices that
panic when they fall inside a character, and a `u32` that holds the bits waiting for the next
code unit. What `ModifiedUtf7` says of reading is what this computes.

## What is proved

* `decodeLoop_refines` — no slice panics, and the groups are read as `ModifiedUtf7` says.
* `decode_modifiedUtf7` — reading a name undoes writing it, and a name that is broken is
  returned as sent.
-/

namespace Mailbag.Imap.Utf7

open Collections Folders

/-- The six bits of a byte of modified base64. -/
def sextet (character : UInt8) : Option UInt8 :=
  if 65 ≤ character ∧ character ≤ 90 then some (character - 65)
  else if 97 ≤ character ∧ character ≤ 122 then some (character - 97 + 26)
  else if 48 ≤ character ∧ character ≤ 57 then some (character - 48 + 52)
  else if character = 43 then some 62
  else if character = 44 then some 63
  else none

/-- The code units read so far, and the bits that wait for the next. -/
structure Accumulator where
  /-- The code units. -/
  codeUnits : List UInt16
  /-- The bits. -/
  bits : UInt32
  /-- How many there are. -/
  bitCount : ℕ

namespace Accumulator

/-- Nothing is read yet. -/
def new : Accumulator := ⟨[], 0, 0⟩

/-- Six more bits. -/
def push (accumulator : Accumulator) (value : UInt8) : Accumulator :=
  let bits := accumulator.bits <<< 6 ||| value.toUInt32
  let bitCount := accumulator.bitCount + 6
  if 16 ≤ bitCount then
    let bitCount := bitCount - 16
    { codeUnits := accumulator.codeUnits ++ [(bits >>> UInt32.ofNat bitCount).toUInt16]
      bits := bits &&& ((1 : UInt32) <<< UInt32.ofNat bitCount - 1)
      bitCount }
  else { accumulator with bits, bitCount }

/-- The bytes of a group; none when one is outside modified base64. -/
def read (accumulator : Accumulator) : List UInt8 → Option Accumulator
  | [] => some accumulator
  | character :: bytes => (sextet character).bind fun value => (accumulator.push value).read bytes

end Accumulator

/-- The text of one group between `&` and `-`. -/
def decodeUtf16Group (group : List Char) : Option (List Char) := do
  let accumulator ← Accumulator.new.read (group.flatMap String.utf8EncodeChar)
  -- What is left over only fills the last base64 character, with zeros.
  if 6 ≤ accumulator.bitCount ∨ accumulator.bits ≠ 0 then none
  else fromUtf16 (accumulator.codeUnits.map UInt16.toNat)

/-- Read group after group. -/
def decodeLoop (decoded rest : List Char) : Except Panic (Option (List Char)) :=
  match findByte '&' rest with
  | none => .ok (some (decoded ++ rest))
  | some start =>
    match sliceTo rest start, sliceFrom rest (start + 1) with
    | .error panic, _ => .error panic
    | _, .error panic => .error panic
    | .ok plain, .ok afterStart =>
      match findByte '-' afterStart with
      | none => .ok none
      | some groupLength =>
        match slice rest (start + 1) (start + 1 + groupLength) with
        | .error panic => .error panic
        | .ok group =>
          match if group = [] then some ['&'] else decodeUtf16Group group with
          | none => .ok none
          | some text =>
            match _h : sliceFrom rest (start + groupLength + 2) with
            | .error panic => .error panic
            | .ok rest => decodeLoop (decoded ++ plain ++ text) rest
termination_by rest.length
decreasing_by exact length_of_sliceFrom (Nat.succ_pos _) _h

/-- The name with its groups decoded, unless it is not modified UTF-7. -/
def decodeGroups (name : List Char) : Except Panic (Option (List Char)) := decodeLoop [] name

/-- The name as readable text; a name that is not modified UTF-7 is returned as sent. -/
def decode (name : String) : Except Panic String :=
  (decodeGroups name.toList).map fun decoded => (decoded.map String.ofList).getD name

/-! ### The bits of a group -/

theorem sextet_ascii :
    ∀ n < 128, sextet (Char.ofNat n).val.toUInt8 = (base64Value (Char.ofNat n)).map
      UInt8.ofNat := by
  decide +kernel

theorem sextet_high : ∀ n < 256, 128 ≤ n → sextet (UInt8.ofNat n) = none := by decide +kernel

theorem base64Value_lt {character : Char} {v : ℕ} (h : base64Value character = some v) :
    v < 64 := by
  rw [base64Value_eq] at h
  split at h
  · rename_i hmem
    cases h
    exact List.idxOf_lt_length_of_mem hmem
  · cases h

/-- A character of several bytes begins with one outside ASCII. -/
theorem utf8EncodeChar_high {character : Char} (h : 128 ≤ character.toNat) :
    ∃ first bytes, String.utf8EncodeChar character = first :: bytes ∧ 128 ≤ first.toNat := by
  have hor : ∀ n < 256, 128 ≤ (UInt8.ofNat n &&& 0x1f ||| 0xc0).toNat ∧
    128 ≤ (UInt8.ofNat n &&& 0x0f ||| 0xe0).toNat ∧
      128 ≤ (UInt8.ofNat n &&& 0x07 ||| 0xf0).toNat := by decide +kernel
  have hhigh (byte : UInt8) := hor byte.toNat byte.toNat_lt
  simp only [UInt8.ofNat_toNat] at hhigh
  obtain hsize | hsize | hsize | hsize := Char.utf8Size_eq character
  · have hle : character.toNat ≤ 127 := Char.utf8Size_eq_one_iff.mp hsize
    omega
  · exact ⟨_, _, String.utf8EncodeChar_eq_cons_cons hsize, (hhigh _).1⟩
  · exact ⟨_, _, String.utf8EncodeChar_eq_cons_cons_cons hsize, (hhigh _).2.1⟩
  · exact ⟨_, _, String.utf8EncodeChar_eq_cons_cons_cons_cons hsize, (hhigh _).2.2⟩

namespace Accumulator

theorem read_character (accumulator : Accumulator) (character : Char) (bytes : List UInt8) :
    accumulator.read (String.utf8EncodeChar character ++ bytes) =
      (base64Value character).bind fun v => (accumulator.push (UInt8.ofNat v)).read bytes := by
  by_cases hascii : character.toNat < 128
  · have hsize : character.utf8Size = 1 := Char.utf8Size_eq_one_iff.mpr (Nat.le_of_lt_succ hascii)
    have hsextet := sextet_ascii character.toNat hascii
    rw [Char.ofNat_toNat] at hsextet
    rw [String.utf8EncodeChar_eq_singleton hsize, List.singleton_append, read, hsextet]
    cases base64Value character <;> rfl
  · obtain ⟨first, rest, hbytes, hfirst⟩ := utf8EncodeChar_high (Nat.le_of_not_lt hascii)
    have hsextet := sextet_high first.toNat first.toNat_lt hfirst
    rw [UInt8.ofNat_toNat] at hsextet
    have hnone : base64Value character = none := by
      rw [base64Value_eq, if_neg fun hmem => hascii (ascii_of_mem_alphabet _ hmem)]
    rw [hbytes, List.cons_append, read, hsextet, hnone]
    rfl

/-- The bits that wait are fewer than a code unit's. -/
structure Waiting (accumulator : Accumulator) : Prop where
  /-- There are at most fifteen. -/
  count : accumulator.bitCount < 16
  /-- They fit. -/
  bits : accumulator.bits.toNat < 2 ^ accumulator.bitCount

theorem mask_toNat :
    ∀ k < 6, ((1 : UInt32) <<< UInt32.ofNat k - 1).toNat = 2 ^ k - 1 ∧
      (UInt32.ofNat k).toNat % 32 = k := by
  decide +kernel

variable {accumulator : Accumulator} {v : ℕ}

theorem bits_toNat (h : accumulator.Waiting) (hv : v < 64) :
    (accumulator.bits <<< 6 ||| (UInt8.ofNat v).toUInt32).toNat = accumulator.bits.toNat *
      64 + v := by
  have hpow : 2 ^ accumulator.bitCount ≤ 2 ^ 15 :=
    Nat.pow_le_pow_right (by decide) (Nat.le_of_lt_succ h.count)
  have hbits := h.bits
  have hsix : (6 : UInt32).toNat % 32 = 6 := rfl
  have hvalue : (UInt8.ofNat v).toUInt32.toNat = v := by
    rw [UInt8.toNat_toUInt32, UInt8.toNat_ofNat']
    omega
  rw [UInt32.toNat_or, UInt32.toNat_shiftLeft, hsix, hvalue, Nat.shiftLeft_eq,
    Nat.mod_eq_of_lt (by omega)]
  have hor := Nat.shiftLeft_add_eq_or_of_lt (show v < 2 ^ 6 from hv) accumulator.bits.toNat
  rw [Nat.shiftLeft_eq] at hor
  exact hor.symm

theorem push_waits (h : accumulator.Waiting) (hv : v < 64) (hfew : accumulator.bitCount + 6 < 16) :
    (accumulator.push (UInt8.ofNat v)).Waiting ∧
      (accumulator.push (UInt8.ofNat v)).codeUnits = accumulator.codeUnits ∧
      (accumulator.push (UInt8.ofNat v)).bits.toNat = accumulator.bits.toNat * 64 + v ∧
      (accumulator.push (UInt8.ofNat v)).bitCount = accumulator.bitCount + 6 := by
  have hpush : accumulator.push (UInt8.ofNat v) =
      { accumulator with
        bits := accumulator.bits <<< 6 ||| (UInt8.ofNat v).toUInt32
        bitCount := accumulator.bitCount + 6 } := if_neg (by omega)
  have hbits := h.bits
  rw [hpush]
  refine ⟨⟨hfew, ?_⟩, rfl, bits_toNat h hv, rfl⟩
  show (accumulator.bits <<< 6 ||| (UInt8.ofNat v).toUInt32).toNat < 2 ^ (accumulator.bitCount + 6)
  rw [bits_toNat h hv, pow_add]
  omega

/-- Bits that make a code unit. -/
theorem push_emits (h : accumulator.Waiting) (hv : v < 64)
    (hmany : 16 ≤ accumulator.bitCount + 6) :
    (accumulator.push (UInt8.ofNat v)).Waiting ∧
      (accumulator.push (UInt8.ofNat v)).codeUnits.map UInt16.toNat = accumulator.codeUnits.map
      UInt16.toNat ++
        [(accumulator.bits.toNat * 64 + v) / 2 ^ (accumulator.bitCount + 6 - 16)] ∧
      (accumulator.push (UInt8.ofNat v)).bits.toNat =
        (accumulator.bits.toNat * 64 + v) % 2 ^ (accumulator.bitCount + 6 - 16) ∧
      (accumulator.push (UInt8.ofNat v)).bitCount = accumulator.bitCount + 6 - 16 := by
  have hcount := h.count
  have hbits := h.bits
  generalize hk : accumulator.bitCount + 6 - 16 = k
  obtain ⟨hmask, hshift⟩ := mask_toNat k (by omega)
  have hpush : accumulator.push (UInt8.ofNat v) =
      { codeUnits := accumulator.codeUnits ++
          [((accumulator.bits <<< 6 ||| (UInt8.ofNat v).toUInt32) >>> UInt32.ofNat k).toUInt16]
        bits := (accumulator.bits <<< 6 ||| (UInt8.ofNat v).toUInt32) &&&
          ((1 : UInt32) <<< UInt32.ofNat k - 1)
        bitCount := k } := by
    rw [← hk]
    exact if_pos hmany
  have hlow : ((accumulator.bits <<< 6 ||| (UInt8.ofNat v).toUInt32) &&&
    ((1 : UInt32) <<< UInt32.ofNat k - 1)).toNat =
      (accumulator.bits.toNat * 64 + v) % 2 ^ k := by
    rw [UInt32.toNat_and, bits_toNat h hv, hmask, Nat.and_two_pow_sub_one_eq_mod]
  have hunit :
    (((accumulator.bits <<< 6 ||| (UInt8.ofNat v).toUInt32) >>> UInt32.ofNat k).toUInt16).toNat =
      (accumulator.bits.toNat * 64 + v) / 2 ^ k := by
    have hlt : (accumulator.bits.toNat * 64 + v) / 2 ^ k < 2 ^ 16 := by
      refine Nat.div_lt_of_lt_mul ?_
      have hpow : 2 ^ k * 2 ^ 16 = 2 ^ accumulator.bitCount * 2 ^ 6 := by
        rw [← pow_add, ← pow_add]
        congr 1
        omega
      rw [hpow]
      omega
    rw [UInt32.toNat_toUInt16, UInt32.toNat_shiftRight, hshift, bits_toNat h hv,
      Nat.shiftRight_eq_div_pow, Nat.mod_eq_of_lt hlt]
  rw [hpush]
  refine ⟨⟨by show k < 16; omega, ?_⟩, ?_, hlow, rfl⟩
  · show UInt32.toNat _ < 2 ^ k
    rw [hlow]
    exact Nat.mod_lt _ (Nat.two_pow_pos k)
  · rw [List.map_append, List.map_singleton, hunit]

/-- What the code units are once a group is read. -/
def finish (accumulator : Accumulator) : Option (List ℕ) :=
  if 6 ≤ accumulator.bitCount ∨ accumulator.bits ≠ 0 then none
    else some (accumulator.codeUnits.map UInt16.toNat)

/-- **The code units of a group** are those of `ModifiedUtf7`. -/
theorem read_finish (h : accumulator.Waiting) (group : List Char) :
    (accumulator.read (group.flatMap String.utf8EncodeChar)).bind finish =
      (Folders.codeUnits accumulator.bits.toNat accumulator.bitCount group).map
      (accumulator.codeUnits.map UInt16.toNat ++ ·) := by
  induction group generalizing accumulator with
  | nil =>
    have hzero : accumulator.bits ≠ 0 ↔ accumulator.bits.toNat ≠ 0 :=
      not_congr UInt32.toNat_inj.symm
    rw [List.flatMap_nil, read, Option.bind_some, finish, Folders.codeUnits]
    by_cases hover : 6 ≤ accumulator.bitCount ∨ accumulator.bits ≠ 0
    · rw [if_pos hover, if_pos (hover.imp_right hzero.mp), Option.map_none]
    · have hover' : ¬(6 ≤ accumulator.bitCount ∨ accumulator.bits.toNat ≠ 0) :=
        fun h => hover (h.imp_right hzero.mpr)
      rw [if_neg hover, if_neg hover', Option.map_some, List.append_nil]
  | cons character group ih =>
    rw [List.flatMap_cons, read_character, Folders.codeUnits]
    cases hvalue : base64Value character with
    | none => rfl
    | some v =>
      have hv := base64Value_lt hvalue
      simp only [Option.bind_eq_bind, Option.bind_some, Option.pure_def]
      by_cases hmany : 16 ≤ accumulator.bitCount + 6
      · obtain ⟨hwaiting, hunits, hbits, hcount⟩ := push_emits h hv hmany
        rw [ih hwaiting, hunits, hbits, hcount, if_pos hmany]
        cases Folders.codeUnits _ _ group <;> simp
      · obtain ⟨hwaiting, hunits, hbits, hcount⟩ := push_waits h hv (Nat.lt_of_not_le hmany)
        rw [ih hwaiting, hunits, hbits, hcount, if_neg hmany]

end Accumulator

/-- **The text of a group** is that of `ModifiedUtf7`. -/
theorem decodeUtf16Group_eq (group : List Char) :
    decodeUtf16Group group = Folders.decodeUtf16Group group := by
  have hnew : Accumulator.new.Waiting := ⟨by decide, by decide⟩
  have hread := Accumulator.read_finish hnew group
  have hfinish : decodeUtf16Group group =
      ((Accumulator.new.read (group.flatMap String.utf8EncodeChar)).bind Accumulator.finish).bind
        fromUtf16 := by
    rw [decodeUtf16Group]
    cases Accumulator.new.read (group.flatMap String.utf8EncodeChar) with
    | none => rfl
    | some accumulator =>
      rw [Option.bind_eq_bind, Option.bind_some, Option.bind_some, Accumulator.finish]
      split <;> rfl
  rw [hfinish, hread, Folders.decodeUtf16Group]
  cases hunits : Folders.codeUnits 0 0 group with
  | none =>
    rw [show Folders.codeUnits Accumulator.new.bits.toNat Accumulator.new.bitCount group =
      none from hunits]
    rfl
  | some units =>
    rw [show Folders.codeUnits Accumulator.new.bits.toNat Accumulator.new.bitCount group =
      some units from hunits]
    rfl

/-! ### A name -/

theorem decodeLoop_plain {rest : List Char} (h : '&' ∉ rest) (decoded : List Char) :
    decodeLoop decoded rest = .ok (some (decoded ++ rest)) := by
  rw [decodeLoop, findByte_eq_none h]

theorem slices_and (plain tail : List Char) :
    sliceTo (plain ++ '&' :: tail) (byteLength plain) = .ok plain ∧
      sliceFrom (plain ++ '&' :: tail) (byteLength plain + 1) = .ok tail := by
  refine ⟨sliceTo_append _ _, ?_⟩
  have hslice := sliceFrom_append (plain ++ ['&']) tail
  rwa [byteLength_append, List.append_assoc] at hslice

theorem decodeLoop_unended {plain tail : List Char} (hplain : '&' ∉ plain) (htail : '-' ∉ tail)
    (decoded : List Char) : decodeLoop decoded (plain ++ '&' :: tail) = .ok none := by
  rw [decodeLoop, findByte_append hplain]
  simp only [(slices_and plain tail).1, (slices_and plain tail).2, findByte_eq_none htail]

theorem slices_group (plain group after : List Char) :
    slice (plain ++ '&' :: (group ++ '-' :: after)) (byteLength plain + 1)
    (byteLength plain + 1 + byteLength group) = .ok group ∧
      sliceFrom (plain ++ '&' :: (group ++ '-' :: after))
      (byteLength plain + byteLength group + 2) = .ok after := by
  have hmiddle := slice_append (plain ++ ['&']) group ('-' :: after)
  have hafter := sliceFrom_append (plain ++ '&' :: (group ++ ['-'])) after
  constructor
  · rwa [byteLength_append, List.append_assoc] at hmiddle
  · have hlength : byteLength (plain ++ '&' :: (group ++ ['-'])) = byteLength plain +
        byteLength group + 2 := by
      rw [byteLength_append, byteLength_cons, byteLength_append]
      show byteLength plain + (1 + (byteLength group + 1)) = _
      omega
    rw [hlength] at hafter
    simpa using hafter

/-- **A group** and what comes after it. -/
theorem decodeLoop_group {plain group : List Char} (hplain : '&' ∉ plain) (hgroup : '-' ∉ group)
    (decoded after : List Char) :
    decodeLoop decoded (plain ++ '&' :: (group ++ '-' :: after)) =
      match groupText group with
      | none => .ok none
      | some text => decodeLoop (decoded ++ plain ++ text) after := by
  obtain ⟨hslice, hafter⟩ := slices_group plain group after
  obtain ⟨hplainSlice, htail⟩ := slices_and plain (group ++ '-' :: after)
  rw [decodeLoop, findByte_append hplain]
  simp only [hplainSlice, htail, findByte_append hgroup, hslice, decodeUtf16Group_eq]
  rw [groupText]
  split
  · rfl
  · split
    · rename_i herror
      rw [hafter] at herror
      cases herror
    · rename_i hok
      rw [hafter] at hok
      cases hok
      rfl

/-- **No slice panics**, and the groups are read as `ModifiedUtf7` says. -/
theorem decodeLoop_refines (decoded name : List Char) :
    decodeLoop decoded name = .ok ((Folders.decodeGroups name).map (decoded ++ ·)) := by
  induction name using name_induction generalizing decoded with
  | hplain plain hplain => rw [decodeLoop_plain hplain, decodeGroups_plain hplain, Option.map_some]
  | hunended plain tail hplain htail =>
    rw [decodeLoop_unended hplain htail, decodeGroups_unended hplain htail, Option.map_none]
  | hgroup plain group after hplain hgroup ih =>
    rw [decodeLoop_group hplain hgroup, decodeGroups_group hplain hgroup]
    cases groupText group with
    | none => rfl
    | some text =>
      simp only [ih, Option.bind_some, Option.map_map]
      congr 2
      funext rest
      simp

/-- The code reads a name as `MailboxNames` says. -/
theorem decode_eq (name : String) : decode name = .ok (Folders.decode name) := by
  rw [decode, decodeGroups, decodeLoop_refines, Folders.decode]
  cases Folders.decodeGroups name.toList <;> rfl

/-- **Modified UTF-7**: reading a name undoes writing it; every name is read without a panic;
and a name with a group that has no end or is bad is returned as sent. -/
theorem decode_modifiedUtf7 :
    (∀ text : String, decode (encode text) = .ok text) ∧
    (∀ name : String, ∃ shown, decode name = .ok shown) ∧
      ∀ name : String, Broken name.toList → decode name = .ok name := by
  refine ⟨fun text => ?_, fun name => ⟨_, decode_eq name⟩, fun name hbroken => ?_⟩
  · rw [decode_eq, Folders.decode, decodeGroups_encode]
    exact congrArg Except.ok String.ofList_toList
  · rw [decode_eq, Folders.decode, (decodeGroups_eq_none_iff _).mpr hbroken]

end Mailbag.Imap.Utf7
