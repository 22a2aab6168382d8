import Mathlib.Algebra.Group.Nat.Defs
import Mathlib.Data.List.Basic

/-!
# The mailbox names of a LIST reply

A name as one LIST response gave it, with its attributes and its hierarchy delimiter, and
modified UTF-7, which a server writes its names in unless UTF-8 names are enabled.

## What is proved

* `eq_append_of_rsplitOnce` — a name split at its last delimiter is the two parts around it.
* `rsplitOnce_nil` — the empty text is found last after the whole name.
-/

namespace Mailbag.Folders

/-- One mailbox of a LIST reply. -/
structure MailboxName where
  /-- As the server sent it. -/
  name : String
  /-- Its attributes, in the order listed. -/
  attributes : List String
  /-- The hierarchy delimiter; none for a flat name. -/
  delimiter : Option String
  deriving DecidableEq

/-- Every mailbox of an account, from one completed LIST command. -/
structure MailboxList where
  /-- The mailboxes, in the order listed. -/
  names : List MailboxName
  /-- Whether the names are UTF-8; otherwise they are modified UTF-7. -/
  utf8Names : Bool

/-- `str::eq_ignore_ascii_case`. -/
def eqIgnoreAsciiCase (a b : String) : Bool := a.toLower = b.toLower

/-! ### Splitting -/

/-- `str::rsplit_once`: the parts before and after the last place the delimiter stands. -/
def rsplitOnce (delimiter : List Char) : List Char → Option (List Char × List Char)
  | [] => if delimiter = [] then some ([], []) else none
  | c :: name =>
    match rsplitOnce delimiter name with
    | some (parent, rest) => some (c :: parent, rest)
    | none => if delimiter <+: c :: name then some ([], (c :: name).drop delimiter.length) else none

/-- **A name split at its last delimiter** is the part before, the delimiter and the part after. -/
theorem eq_append_of_rsplitOnce {delimiter name parent rest : List Char}
    (h : rsplitOnce delimiter name = some (parent, rest)) :
    name = parent ++ (delimiter ++ rest) := by
  induction name generalizing parent rest with
  | nil =>
    rw [rsplitOnce] at h
    split at h
    · next hnil =>
      cases h
      simp [hnil]
    · cases h
  | cons c name ih =>
    rw [rsplitOnce] at h
    split at h
    · next parent' rest' hsplit =>
      cases h
      rw [ih hsplit]
      rfl
    · split at h
      · next hprefix =>
        cases h
        exact (List.prefix_iff_eq_append.mp hprefix).symm
      · cases h

/-- **The empty text** is found last after the whole name. -/
theorem rsplitOnce_nil (name : List Char) : rsplitOnce [] name = some (name, []) := by
  induction name with
  | nil => rfl
  | cons c name ih => rw [rsplitOnce, ih]

/-! ### Modified UTF-7 -/

/-- The six bits of a character of modified base64. -/
def base64Value (character : Char) : Option ℕ :=
  if 'A' ≤ character ∧ character ≤ 'Z' then some (character.toNat - 'A'.toNat)
  else if 'a' ≤ character ∧ character ≤ 'z' then some (character.toNat - 'a'.toNat + 26)
  else if '0' ≤ character ∧ character ≤ '9' then some (character.toNat - '0'.toNat + 52)
  else if character = '+' then some 62
  else if character = ',' then some 63
  else none

/-- The code units of a group, given the bits that wait for the next one. -/
def codeUnits (bits bitCount : ℕ) : List Char → Option (List ℕ)
  -- What is left over only fills the last character, with zeros.
  | [] => if 6 ≤ bitCount ∨ bits ≠ 0 then none else some []
  | character :: group => do
    let bits := bits * 64 + (← base64Value character)
    let bitCount := bitCount + 6
    if 16 ≤ bitCount then
      return bits / 2 ^ (bitCount - 16) ::
        (← codeUnits (bits % 2 ^ (bitCount - 16)) (bitCount - 16) group)
    else codeUnits bits bitCount group

/-- `String::from_utf16`: nothing for a surrogate outside a pair. -/
def fromUtf16 : List ℕ → Option (List Char)
  | [] => some []
  | unit :: units =>
    if 0xD800 ≤ unit ∧ unit < 0xDC00 then
      match units with
      | low :: units =>
        if 0xDC00 ≤ low ∧ low < 0xE000 then
          (fromUtf16 units).map
            (Char.ofNat (0x10000 + (unit - 0xD800) * 0x400 + (low - 0xDC00)) :: ·)
        else none
      | [] => none
    else if 0xDC00 ≤ unit ∧ unit < 0xE000 then none
    else (fromUtf16 units).map (Char.ofNat unit :: ·)

/-- The text of one group between `&` and `-`. -/
def decodeUtf16Group (group : List Char) : Option (List Char) := codeUnits 0 0 group >>= fromUtf16

/-- The name with its groups decoded, unless it is not modified UTF-7. -/
def decodeGroups (rest : List Char) : Option (List Char) :=
  match _h : rest.dropWhile (· ≠ '&') with
  | [] => some rest
  | _ :: tail =>
    match _h' : tail.dropWhile (· ≠ '-') with
    | [] => none
    | _ :: after => do
      let group := tail.takeWhile (· ≠ '-')
      let text ← if group = [] then some ['&'] else decodeUtf16Group group
      return rest.takeWhile (· ≠ '&') ++ text ++ (← decodeGroups after)
termination_by rest.length
decreasing_by
  have hand := (List.dropWhile_suffix (l := rest) (· ≠ '&')).length_le
  have hdash := (List.dropWhile_suffix (l := tail) (· ≠ '-')).length_le
  simp only [_h, _h', List.length_cons] at hand hdash
  omega

/-- The name as readable text; a name that is not modified UTF-7 is returned as sent. -/
def decode (name : String) : String :=
  match decodeGroups name.toList with
  | some decoded => .ofList decoded
  | none => name

-- The example of RFC 3501, section 5.1.3.
example : decode "~peter/mail/&U,BTFw-/&ZeVnLIqe-" = "~peter/mail/台北/日本語" := by decide +kernel

end Mailbag.Folders
