import Mailbag.Imap.PageWithText

/-!
# The walk over a message's parts

The content rules walk the descriptions of a message's parts and choose sections. What the walk
chooses is compared with `Chosen`, which speaks of places alone.

## The model

A place in a tree is the list of positions that lead to it from the root, each counted from 0.
A section number is a `u32` counted from 1.

## What is proved

* `selects` — the walk chooses the leaves to read, whatever was found before.
-/

namespace Mailbag.Imap

open Cycle

/-! ### Bodies and their descriptions -/

/-- What BODYSTRUCTURE says of every body. -/
structure BodyContentCommon where
  /-- The media type. -/
  type : String
  /-- The media subtype. -/
  subtype : String
  /-- The Content-Type parameters. -/
  params : Option (List (String × String))
  /-- The disposition type. -/
  disposition : Option String

/-- A body as BODYSTRUCTURE describes it. -/
inductive BodyStructure where
  /-- Several bodies; its media type is `multipart`. -/
  | multipart (subtype : String) (params : Option (List (String × String)))
      (disposition : Option String) (bodies : List BodyStructure)
  /-- A single part, with its Content-ID. -/
  | basic (common : BodyContentCommon) (id : Option String)
  /-- A text. -/
  | text (common : BodyContentCommon) (id : Option String)
  /-- A message inside the message. -/
  | message (common : BodyContentCommon) (id : Option String) (body : BodyStructure)

/-- In lower case, as far as the letters are ASCII. -/
def toAsciiLowercase (text : String) : String := String.ofList (text.toList.map Char.toLower)

/-- A Content-ID without its angle brackets. -/
def stripAngleBrackets (contentId : String) : String :=
  match contentId.toList with
  | '<' :: rest => if rest.getLast? = some '>' then String.ofList rest.dropLast else contentId
  | _ => contentId

/-- The description of one body. -/
def describe (common : BodyContentCommon) (section' : List UInt32) (children : List MessagePart)
    (contentId : Option String) : MessagePart :=
  .mk section' (toAsciiLowercase common.type) (toAsciiLowercase common.subtype)
    ((common.params.getD []).map fun (name, value) => (toAsciiLowercase name, value))
    (common.disposition.map toAsciiLowercase) (contentId.map stripAngleBrackets) children

/-- The section number of the child at a position: they are counted from 1. -/
def sectionNumber (position : ℕ) : UInt32 := UInt32.ofNat (position + 1)

mutual

/-- The descriptions of a body and the bodies in it, under the section of the body. -/
def project : BodyStructure → List UInt32 → MessagePart
  | .multipart subtype params disposition bodies, section' =>
    describe ⟨"multipart", subtype, params, disposition⟩ section'
      (projectFrom 0 bodies section') none
  | .basic common id, section' => describe common section' [] id
  | .text common id, section' => describe common section' [] id
  | .message common id _, section' => describe common section' [] id

/-- The children of a multipart, from a position on. -/
def projectFrom (position : ℕ) : List BodyStructure → List UInt32 → List MessagePart
  | [], _ => []
  | body :: bodies, section' =>
    project body (section' ++ [sectionNumber position]) :: projectFrom (position + 1)
      bodies section'

end

/-- The section of the whole message: a message of one part is its part 1. -/
def BodyStructure.ownSection : BodyStructure → List UInt32
  | .multipart .. => []
  | _ => [1]

/-- The description of a message. -/
def fromBodyStructure (body : BodyStructure) : MessagePart := project body body.ownSection

/-! ### Places -/

/-- The bodies of a multipart. -/
def BodyStructure.bodies : BodyStructure → List BodyStructure
  | .multipart _ _ _ bodies => bodies
  | _ => []

/-- The body at a place. -/
def BodyStructure.bodyAt : BodyStructure → List ℕ → Option BodyStructure
  | body, [] => some body
  | body, position :: path => body.bodies[position]?.bind fun child => child.bodyAt path

namespace MessagePart

/-- The part's section. -/
def sectionNumbers : MessagePart → List UInt32
  | .mk section' .. => section'

/-- The part has the media type. -/
def Is (part : MessagePart) (mediaType mediaSubtype : String) : Prop :=
  match part with
  | .mk _ mediaType' mediaSubtype' .. => mediaType' = mediaType ∧ mediaSubtype' = mediaSubtype

/-- The part is a multipart of some kind. -/
def IsMultipart (part : MessagePart) : Prop := ∃ mediaSubtype, part.Is "multipart" mediaSubtype

/-- The part at a place. -/
def partAt : MessagePart → List ℕ → Option MessagePart
  | part, [] => some part
  | part, position :: path => part.children[position]?.bind fun child => child.partAt path

@[simp] theorem partAt_nil (part : MessagePart) : part.partAt [] = some part := by rw [partAt]

@[simp] theorem partAt_cons (part : MessagePart) (position : ℕ) (path : List ℕ) :
    part.partAt (position :: path) = part.children[position]?.bind fun child =>
      child.partAt path := by
  rw [partAt]

/-- The position of the root of a related set: the child its `start` parameter names, else the
first. -/
def rootPosition (part : MessagePart) : ℕ :=
  (((startOf part.parameters).bind fun start => part.children.findIdx? fun child =>
    child.contentId = some start)).getD 0

theorem Is.trans_eq {part : MessagePart} {mediaType mediaSubtype mediaSubtype' : String}
    (h : part.Is mediaType mediaSubtype) (heq : mediaSubtype = mediaSubtype') :
    part.Is mediaType mediaSubtype' := heq ▸ h

theorem Is.eq {part : MessagePart} {mediaType mediaType' mediaSubtype mediaSubtype' : String}
    (h : part.Is mediaType mediaSubtype) (h' : part.Is mediaType' mediaSubtype') :
    mediaType = mediaType' ∧ mediaSubtype = mediaSubtype' := by
  obtain ⟨section', _, _, parameters, disposition, contentId, children⟩ := part
  exact ⟨h.1.symm.trans h'.1, h.2.symm.trans h'.2⟩

/-- A plain text is no multipart. -/
theorem Is.not_isMultipart {part : MessagePart} (h : part.Is "text" "plain") :
    ¬part.IsMultipart := by
  rintro ⟨mediaSubtype, hmultipart⟩
  exact absurd (h.eq hmultipart).1 (by decide)

theorem sizeOf_child {part child : MessagePart} {position : ℕ}
    (h : part.children[position]? = some child) : sizeOf child < sizeOf part := by
  obtain ⟨section', mediaType, mediaSubtype, parameters, disposition, contentId, children⟩ := part
  have := List.sizeOf_lt_of_mem (List.mem_of_getElem? h)
  simp only [MessagePart.children] at this
  simp only [MessagePart.mk.sizeOf_spec]
  omega

theorem sizeOf_partAt {part inner : MessagePart} {path : List ℕ}
    (h : part.partAt path = some inner) : sizeOf inner ≤ sizeOf part := by
  induction path generalizing part with
  | nil =>
    cases h
    exact le_rfl
  | cons position path ih =>
    obtain ⟨child, hchild, hinner⟩ :=
      Option.bind_eq_some_iff.mp (part.partAt_cons position path ▸ h)
    exact (ih hinner).trans (sizeOf_child hchild).le

end MessagePart

/-- **The leaves to read**: a plain text that is no attached file; no attachment and nothing
encrypted at or above it; under each alternative above it, no later one has a leaf to read;
under signed content it is in the first child, and under a related set in its root. -/
def Chosen (root : MessagePart) (path : List ℕ) : Prop :=
  (∃ leaf, root.partAt path = some leaf ∧ leaf.children = [] ∧ leaf.Is "text" "plain" ∧
    leaf.isAttachedFile = false) ∧
    (∀ above part, above <+: path → root.partAt above = some part →
      part.disposition ≠ some "attachment" ∧ ¬part.Is "multipart" "encrypted") ∧
    ∀ above part position, above ++ [position] <+: path → (hpart : root.partAt above = some part) →
      (part.Is "multipart" "alternative" → ∀ later child, position < later →
        (hchild : part.children[later]? = some child) → ¬∃ rest, Chosen child rest) ∧
      (part.Is "multipart" "signed" → position = 0) ∧
      (part.Is "multipart" "related" → position = part.rootPosition)
termination_by sizeOf root
decreasing_by exact (MessagePart.sizeOf_child hchild).trans_le (MessagePart.sizeOf_partAt hpart)

/-- A part lets the walk go on to the child at a position. -/
structure Admits (part : MessagePart) (position : ℕ) : Prop where
  /-- It is no attachment. -/
  shown : part.disposition ≠ some "attachment"
  /-- It is not encrypted. -/
  readable : ¬part.Is "multipart" "encrypted"
  /-- No later alternative has a leaf to read. -/
  last : part.Is "multipart" "alternative" → ∀ later child, position < later →
    part.children[later]? = some child →
    ¬∃ rest, Chosen child rest
  /-- Only the first child is signed content. -/
  signed : part.Is "multipart" "signed" → position = 0
  /-- Only the root of a related set is read. -/
  root : part.Is "multipart" "related" → position = part.rootPosition

/-- A leaf that is the whole part. -/
theorem chosen_nil {part : MessagePart} :
    Chosen part [] ↔ part.children = [] ∧ part.Is "text" "plain" ∧ part.isAttachedFile = false ∧
      part.disposition ≠ some "attachment" := by
  rw [Chosen]
  constructor
  · rintro ⟨⟨leaf, hleaf, hchildren, hplain, hfile⟩, habove, -⟩
    rw [MessagePart.partAt_nil] at hleaf
    cases hleaf
    exact ⟨hchildren, hplain, hfile, (habove [] part (List.prefix_refl _) part.partAt_nil).1⟩
  · rintro ⟨hchildren, hplain, hfile, hshown⟩
    refine ⟨⟨part, part.partAt_nil, hchildren, hplain, hfile⟩, fun above inner hprefix hinner => ?_,
      fun above _ _ hprefix => ?_⟩
    · obtain rfl := List.prefix_nil.mp hprefix
      cases part.partAt_nil.symm.trans hinner
      exact ⟨hshown, fun hencrypted => hplain.not_isMultipart ⟨_, hencrypted⟩⟩
    · exact absurd (List.prefix_nil.mp hprefix) (by simp)

/-- A leaf under a child. -/
theorem chosen_cons {part : MessagePart} {position : ℕ} {path : List ℕ} :
    Chosen part (position :: path) ↔
      Admits part position ∧ ∃ child, part.children[position]? = some child ∧
      Chosen child path := by
  constructor
  · intro h
    rw [Chosen] at h
    obtain ⟨⟨leaf, hleaf, hchosen⟩, habove, hrules⟩ := h
    obtain ⟨child, hchild, hleaf⟩ :=
      Option.bind_eq_some_iff.mp (part.partAt_cons position path ▸ hleaf)
    have hunder : ∀ above, part.partAt (position :: above) = child.partAt above := fun above => by
      simp [hchild]
    have hhere := habove [] part List.nil_prefix part.partAt_nil
    have hrule := hrules [] part position (List.prefix_append [position] path) part.partAt_nil
    refine ⟨⟨hhere.1, hhere.2, hrule.1, hrule.2.1, hrule.2.2⟩, child, hchild, ?_⟩
    rw [Chosen]
    refine ⟨⟨leaf, hleaf, hchosen⟩, fun above inner hprefix hinner => ?_,
      fun above inner below hprefix hinner => ?_⟩
    · exact habove (position :: above) inner (List.prefix_cons_inj _ |>.mpr hprefix)
        ((hunder above).trans hinner)
    · exact hrules (position :: above) inner below (List.prefix_cons_inj _ |>.mpr hprefix)
        ((hunder above).trans hinner)
  · rintro ⟨hadmits, child, hchild, h⟩
    rw [Chosen] at h
    obtain ⟨⟨leaf, hleaf, hchosen⟩, habove, hrules⟩ := h
    have hunder : ∀ above, part.partAt (position :: above) = child.partAt above := fun above => by
      simp [hchild]
    rw [Chosen]
    refine ⟨⟨leaf, (hunder path).trans hleaf, hchosen⟩, fun above inner hprefix hinner => ?_,
      fun above inner below hprefix hinner => ?_⟩
    · rcases List.prefix_cons_iff.mp hprefix with rfl | ⟨above, rfl, hrest⟩
      · cases part.partAt_nil.symm.trans hinner
        exact ⟨hadmits.shown, hadmits.readable⟩
      · exact habove above inner hrest ((hunder above).symm.trans hinner)
    · rcases List.prefix_cons_iff.mp hprefix with hnil | ⟨above', heq, hrest⟩
      · exact absurd hnil (by simp)
      · cases above with
        | nil =>
          obtain ⟨rfl, -⟩ := List.cons.inj heq
          cases part.partAt_nil.symm.trans hinner
          exact ⟨hadmits.last, hadmits.signed, hadmits.root⟩
        | cons position' above =>
          obtain ⟨rfl, rfl⟩ := List.cons.inj heq
          exact hrules above inner below hrest ((hunder above).symm.trans hinner)

/-! ### The walk -/

/-- The section of the part at a place. -/
def MessagePart.sectionAt (part : MessagePart) (path : List ℕ) : List UInt32 :=
  ((part.partAt path).map MessagePart.sectionNumbers).getD []

/-- The paths that satisfy `C`, in reading order. -/
structure Picks (leaves : List (List ℕ)) (C : List ℕ → Prop) : Prop where
  /-- In reading order. -/
  ordered : leaves.Pairwise (· < ·)
  /-- Exactly these. -/
  mem : ∀ path, path ∈ leaves ↔ C path

theorem Picks.congr {leaves : List (List ℕ)} {C C' : List ℕ → Prop} (h : Picks leaves C)
    (hC : ∀ path, C path ↔ C' path) : Picks leaves C' :=
  ⟨h.ordered, fun path => (h.mem path).trans (hC path)⟩

theorem picks_nil {C : List ℕ → Prop} (h : ∀ path, ¬C path) : Picks [] C :=
  ⟨.nil, fun path => iff_of_false List.not_mem_nil (h path)⟩

/-- The paths that go on from a child. -/
theorem Picks.under {leaves : List (List ℕ)} {C : List ℕ → Prop} (h : Picks leaves C)
    (position : ℕ) :
    Picks (leaves.map (position :: ·)) fun path => ∃ rest, path = position :: rest ∧ C rest := by
  refine ⟨List.pairwise_map.mpr (h.ordered.imp fun hlt => List.cons_lt_cons_self.mpr hlt),
    fun path => ?_⟩
  rw [List.mem_map]
  exact exists_congr fun rest => (and_congr (h.mem rest) eq_comm).trans and_comm

/-- A path to a leaf under a child whose position, counted from `n` on, satisfies `A`. -/
def Under (A : ℕ → Prop) (n : ℕ) (children : List MessagePart) (path : List ℕ) : Prop :=
  ∃ i child rest, children[i]? = some child ∧ path = (n + i) :: rest ∧ A (n + i) ∧ Chosen child rest

theorem under_cons {A : ℕ → Prop} {n : ℕ} {child : MessagePart} {children : List MessagePart}
    {path : List ℕ} :
    Under A n (child :: children) path ↔
      (A n ∧ ∃ rest, path = n :: rest ∧ Chosen child rest) ∨ Under A (n + 1) children path := by
  constructor
  · rintro ⟨i, child', rest, hchild, rfl, hA, hchosen⟩
    cases i with
    | zero =>
      cases hchild
      exact .inl ⟨hA, rest, rfl, hchosen⟩
    | succ i =>
      exact .inr ⟨i, child', rest,
        hchild, by rw [Nat.add_right_comm]; rfl, by rwa [Nat.add_right_comm], hchosen⟩
  · rintro (⟨hA, rest, rfl, hchosen⟩ | ⟨i, child', rest, hchild, rfl, hA, hchosen⟩)
    · exact ⟨0, child, rest, rfl, rfl, hA, hchosen⟩
    · exact ⟨i + 1, child', rest,
        hchild, by rw [Nat.add_right_comm]; rfl, by rwa [Nat.add_right_comm] at hA, hchosen⟩

/-- The paths under the first child come before those under the later ones. -/
theorem Picks.append {A : ℕ → Prop} {n : ℕ} {child : MessagePart} {children : List MessagePart}
    {leaves leaves' : List (List ℕ)} (h : Picks leaves (Chosen child))
    (h' : Picks leaves' (Under A (n + 1) children)) (hA : A n) :
    Picks (leaves.map (n :: ·) ++ leaves') (Under A n (child :: children)) := by
  have hunder := h.under n
  refine ⟨List.pairwise_append.mpr ⟨hunder.ordered, h'.ordered, fun path hpath path' hpath' => ?_⟩,
    fun path => ?_⟩
  · obtain ⟨rest, rfl, -⟩ := (hunder.mem path).mp hpath
    obtain ⟨i, _, rest', -, rfl, -⟩ := (h'.mem path').mp hpath'
    exact List.cons_lt_cons_iff.mpr (.inl (by omega))
  · rw [List.mem_append, hunder.mem, h'.mem, under_cons, and_iff_right hA]

/-- The walk over a part adds the sections of its leaves to read, in reading order. -/
def Selects (part : MessagePart) : Prop :=
  ∃ leaves, Picks leaves (Chosen part) ∧
    ∀ walk, (visit part walk).parts = walk.parts ++ leaves.map part.sectionAt

/-- The sections under the children of a part, whose positions count from `n` on. -/
def Labels (label : List ℕ → List UInt32) (n : ℕ) (children : List MessagePart) : Prop :=
  ∀ i child rest, children[i]? = some child → label ((n + i) :: rest) = child.sectionAt rest

theorem Labels.tail {label : List ℕ → List UInt32} {n : ℕ} {child : MessagePart}
    {children : List MessagePart} (h : Labels label n (child :: children)) :
    Labels label (n + 1) children := by
  intro i child' rest hchild
  rw [Nat.add_right_comm]
  exact h (i + 1) child' rest hchild

theorem Labels.head {label : List ℕ → List UInt32} {n : ℕ} {child : MessagePart}
    {children : List MessagePart} (h : Labels label n (child :: children))
    (leaves : List (List ℕ)) : (leaves.map (n :: ·)).map label = leaves.map child.sectionAt := by
  rw [List.map_map]
  exact List.map_congr_left fun rest _ => h 0 child rest rfl

/-- Every child is looked at. -/
theorem visitAll_selects {label : List ℕ → List UInt32} {children : List MessagePart}
    (hchildren : ∀ child ∈ children, Selects child) {n : ℕ}
    (hlabel : Labels label n children) :
    ∃ leaves, Picks leaves (Under (fun _ => True) n children) ∧
      ∀ walk, (visitAll children walk).parts = walk.parts ++ leaves.map label := by
  induction children generalizing n with
  | nil =>
    exact ⟨[], picks_nil fun path ⟨_, _, _, hchild, _⟩ => by simp at hchild,
      fun walk => by simp [visitAll]⟩
  | cons child children ih =>
    obtain ⟨leaves, hpicks, hvisit⟩ := hchildren child List.mem_cons_self
    obtain ⟨leaves', hpicks', hvisit'⟩ :=
      ih (fun c hc => hchildren c (List.mem_cons_of_mem _ hc)) hlabel.tail
    refine ⟨_, hpicks.append hpicks' trivial, fun walk => ?_⟩
    rw [visitAll, hvisit', hvisit, List.map_append, hlabel.head, List.append_assoc]

/-- One child is looked at. -/
theorem visit_child_selects {label : List ℕ → List UInt32} {children : List MessagePart}
    (hchildren : ∀ child ∈ children, Selects child) (hlabel : Labels label 0 children)
    (position : ℕ) :
    ∃ leaves, Picks leaves (Under (· = position) 0 children) ∧
      ∀ walk, ((children[position]?.map fun child => visit child walk).getD walk).parts =
        walk.parts ++ leaves.map label := by
  cases hchild : children[position]? with
  | none =>
    refine ⟨[], picks_nil fun path ⟨i, child, _, hi, _, hA, _⟩ => ?_, fun walk => by simp⟩
    obtain rfl : i = position := by omega
    cases hchild.symm.trans hi
  | some child =>
    obtain ⟨leaves, hpicks, hvisit⟩ := hchildren child (List.mem_of_getElem? hchild)
    refine ⟨leaves.map (position :: ·), (hpicks.under position).congr fun path => ?_,
      fun walk => ?_⟩
    · constructor
      · rintro ⟨rest, rfl, hchosen⟩
        exact ⟨position, child, rest, hchild, by rw [Nat.zero_add], Nat.zero_add _, hchosen⟩
      · rintro ⟨i, child', rest, hi, rfl, hA, hchosen⟩
        obtain rfl : i = position := by omega
        cases hchild.symm.trans hi
        exact ⟨rest, by rw [Nat.zero_add], hchosen⟩
    · have hsections : (leaves.map (position :: ·)).map label = leaves.map child.sectionAt := by
        rw [List.map_map]
        refine List.map_congr_left fun rest _ => ?_
        have hat := hlabel position child rest hchild
        rwa [Nat.zero_add] at hat
      rw [hsections]
      exact hvisit walk

/-- No later child has a leaf to read. -/
def Last (n : ℕ) (children : List MessagePart) (position : ℕ) : Prop :=
  ∀ i child, children[i]? = some child → position < n + i → ¬∃ rest, Chosen child rest

/-- The last alternative with leaves to read is taken. -/
theorem visitAlternatives_selects {label : List ℕ → List UInt32} {children : List MessagePart}
    (hchildren : ∀ child ∈ children, Selects child) {n : ℕ}
    (hlabel : Labels label n children) :
    ∃ leaves, Picks leaves (Under (Last n children) n children) ∧
      (leaves = [] → ∀ child ∈ children, ¬∃ rest, Chosen child rest) ∧
      ∀ walk chosen, (visitAlternatives children walk chosen).1.parts = walk.parts ∧
        (visitAlternatives children walk chosen).2 = if leaves = [] then chosen
        else some (leaves.map label) := by
  induction children generalizing n with
  | nil =>
    refine ⟨[], picks_nil fun path ⟨_, _, _, hchild, _⟩ => by simp at hchild, fun _ child hc =>
      absurd hc List.not_mem_nil,
      fun walk chosen => ?_⟩
    simp [visitAlternatives]
  | cons child children ih =>
    obtain ⟨leaves, hpicks, hvisit⟩ := hchildren child List.mem_cons_self
    obtain ⟨leaves', hpicks', hnone', hvisit'⟩ :=
      ih (fun c hc => hchildren c (List.mem_cons_of_mem _ hc)) hlabel.tail
    have hbranch : (visit child .new).parts = leaves.map child.sectionAt := by
      simp [hvisit, Walk.new]
    have hlater (position : ℕ) (hposition : n < position) : Last n (child :: children) position ↔
        Last (n + 1) children position := by
      constructor
      · intro h i child' hi hlt
        exact h (i + 1) child' hi (by omega)
      · intro h i child' hi hlt
        cases i with
        | zero => omega
        | succ i => exact h i child' hi (by omega)
    have hrest (path : List ℕ) : Under (Last n (child :: children)) (n + 1) children path ↔
        path ∈ leaves' := by
      rw [hpicks'.mem]
      refine exists_congr fun i => exists_congr fun _ => exists_congr fun _ => ?_
      rw [hlater _ (by omega)]
    by_cases hleaves' : leaves' = []
    · subst hleaves'
      -- no later child has leaves: this one is the last so far
      have hlast : Last n (child :: children) n := by
        intro i child' hi hlt
        cases i with
        | zero => omega
        | succ i => exact hnone' rfl child' (List.mem_of_getElem? hi)
      refine ⟨leaves.map (n :: ·), (hpicks.under n).congr fun path => ?_, fun hnil => ?_,
        fun walk chosen => ?_⟩
      · rw [under_cons, hrest, and_iff_right hlast, or_iff_left List.not_mem_nil]
      · rw [List.map_eq_nil_iff] at hnil
        subst hnil
        refine List.forall_mem_cons.mpr ⟨?_, hnone' rfl⟩
        rintro ⟨rest, hchosen⟩
        exact List.not_mem_nil ((hpicks.mem rest).mpr hchosen)
      · rw [visitAlternatives, hbranch]
        cases leaves with
        | nil => simp [hvisit']
        | cons leaf leaves => simp [hvisit', ← hlabel.head]
    · refine ⟨leaves', ⟨hpicks'.ordered, fun path => ?_⟩, fun hnil => absurd hnil hleaves',
        fun walk chosen => ?_⟩
      · rw [under_cons, hrest]
        refine (or_iff_right ?_).symm
        rintro ⟨hlast, -⟩
        obtain ⟨path', hpath'⟩ := List.exists_mem_of_ne_nil _ hleaves'
        obtain ⟨i, child', rest, hi, -, -, hchosen⟩ := (hpicks'.mem path').mp hpath'
        exact hlast (i + 1) child' hi (by omega) ⟨rest, hchosen⟩
      · rw [visitAlternatives]
        split <;> simp [hvisit', hleaves']

theorem visitFirst_eq (children : List MessagePart) (walk : Walk) :
    visitFirst children walk = (children[0]?.map fun child => visit child walk).getD walk := by
  cases children <;> simp [visitFirst]

theorem visitNamed_eq (start : String) (children : List MessagePart) (walk : Walk) :
    visitNamed start children walk =
      (children.findIdx? fun child => child.contentId = some start).bind fun position =>
        children[position]?.map fun child => visit child walk := by
  induction children with
  | nil => simp [visitNamed]
  | cons child children ih =>
    rw [visitNamed, List.findIdx?_cons]
    by_cases hnamed : child.contentId = some start
    · simp [hnamed]
    · cases hfound : children.findIdx? (fun child => child.contentId = some start) <;>
        simp [hnamed, hfound, ih]

/-- The root of a related set is looked at. -/
theorem visit_root_eq (part : MessagePart) (walk : Walk) :
    (match (startOf part.parameters).bind fun start => visitNamed start part.children walk with
      | some walk => walk
      | none => visitFirst part.children walk) =
      (part.children[part.rootPosition]?.map fun child => visit child walk).getD walk := by
  rw [MessagePart.rootPosition]
  cases startOf part.parameters with
  | none => exact visitFirst_eq _ _
  | some start =>
    rw [Option.bind_some, Option.bind_some, visitNamed_eq]
    cases hfound : part.children.findIdx? (fun child => child.contentId = some start) with
    | none => exact visitFirst_eq _ _
    | some position =>
      obtain ⟨hlength, -⟩ := List.findIdx?_eq_some_iff_getElem.mp hfound
      simp [List.getElem?_eq_getElem hlength]

/-- Only multiparts have children. -/
def Typed (part : MessagePart) : Prop :=
  ∀ path inner, part.partAt path = some inner → inner.children ≠ [] → inner.IsMultipart

theorem Typed.child {part child : MessagePart} (h : Typed part)
    (hchild : child ∈ part.children) : Typed child := by
  obtain ⟨position, hposition⟩ := List.mem_iff_getElem?.mp hchild
  intro path inner hinner
  exact h (position :: path) inner (by simp [hposition, hinner])

theorem labels_children (part : MessagePart) : Labels part.sectionAt 0 part.children := by
  intro position child rest hchild
  simp [MessagePart.sectionAt, hchild]

/-- The leaves of a multipart are those under the children its rule admits. -/
theorem picks_multipart {part : MessagePart} (hmultipart : part.IsMultipart) {A : ℕ → Prop}
    (hA : ∀ position, A position ↔ Admits part position) {leaves : List (List ℕ)}
    (h : Picks leaves (Under A 0 part.children)) : Picks leaves (Chosen part) := by
  refine h.congr fun path => ?_
  cases path with
  | nil =>
    refine iff_of_false (fun ⟨_, _, _, _, hnil, _⟩ => by cases hnil) fun hchosen => ?_
    exact (chosen_nil.mp hchosen).2.1.not_isMultipart hmultipart
  | cons position path =>
    rw [chosen_cons, ← hA]
    constructor
    · rintro ⟨i, child, rest, hchild, heq, hA, hchosen⟩
      obtain ⟨rfl, rfl⟩ := List.cons.inj heq
      rw [Nat.zero_add] at hA ⊢
      exact ⟨hA, child, hchild, hchosen⟩
    · rintro ⟨hA, child, hchild, hchosen⟩
      exact ⟨position, child, path, hchild, by rw [Nat.zero_add], by rwa [Nat.zero_add], hchosen⟩

/-- A part that is no multipart is a leaf or has none. -/
theorem chosen_iff_nil {part : MessagePart} (htyped : Typed part) (hsingle : ¬part.IsMultipart)
    (path : List ℕ) :
    Chosen part path ↔ path = [] ∧ part.Is "text" "plain" ∧ part.isAttachedFile = false ∧
      part.disposition ≠ some "attachment" := by
  have hchildren : part.children = [] := by
    by_contra hne
    exact hsingle (htyped [] part part.partAt_nil hne)
  cases path with
  | nil => rw [chosen_nil, and_iff_right hchildren, and_iff_right rfl]
  | cons position path =>
    rw [chosen_cons]
    refine iff_of_false ?_ (by simp)
    rintro ⟨-, child, hchild, -⟩
    simp [hchildren] at hchild

/-- Nothing is added where there is no leaf to read. -/
theorem selects_nothing {part : MessagePart} (hnone : ∀ path, ¬Chosen part path)
    (hvisit : ∀ walk, (visit part walk).parts = walk.parts) : Selects part :=
  ⟨[], picks_nil hnone, fun walk => by rw [hvisit, List.map_nil, List.append_nil]⟩

/-- An attachment is passed over. -/
theorem visit_attachment {part : MessagePart} (h : part.disposition = some "attachment")
    (walk : Walk) : visit part walk = walk := by
  obtain ⟨section', mediaType, mediaSubtype, parameters, disposition, contentId, children⟩ := part
  rw [visit]
  exact if_pos h

/-- The walk over a multipart that is no attachment, by its kind. -/
theorem visit_multipart {part : MessagePart} {mediaSubtype : String}
    (hkind : part.Is "multipart" mediaSubtype) (hshown : part.disposition ≠ some "attachment")
    (walk : Walk) :
    visit part walk =
      if mediaSubtype = "alternative" then
        { (visitAlternatives part.children walk none).1 with
          parts := (visitAlternatives part.children walk none).1.parts ++
            (visitAlternatives part.children walk none).2.getD [] }
      else if mediaSubtype = "signed" then visitFirst part.children walk
      else if mediaSubtype = "encrypted" then
        { walk with explanation := walk.explanation.or (some .encrypted) }
      else if mediaSubtype = "related" then
        (part.children[part.rootPosition]?.map fun child => visit child walk).getD walk
      else visitAll part.children walk := by
  rw [← visit_root_eq]
  obtain ⟨section', _, _, parameters, disposition, contentId, children⟩ := part
  obtain ⟨rfl, rfl⟩ := hkind
  have hshown' : disposition ≠ some "attachment" := hshown
  rw [visit, if_neg hshown', if_pos rfl]
  rfl

/-- What the rule of a multipart admits, when it is neither an attachment nor encrypted. -/
theorem admits_iff {part : MessagePart} {mediaSubtype : String}
    (hkind : part.Is "multipart" mediaSubtype) (hshown : part.disposition ≠ some "attachment")
    (hencrypted : mediaSubtype ≠ "encrypted") (position : ℕ) :
    Admits part position ↔ (mediaSubtype = "alternative" → Last 0 part.children position) ∧
      (mediaSubtype = "signed" → position = 0) ∧
      (mediaSubtype = "related" → position = part.rootPosition) := by
  constructor
  · intro h
    refine ⟨fun hsub i child hchild hlt => ?_, fun hsub => h.signed (hkind.trans_eq hsub),
      fun hsub => h.root (hkind.trans_eq hsub)⟩
    rw [Nat.zero_add] at hlt
    exact h.last (hkind.trans_eq hsub) i child hlt hchild
  · rintro ⟨hlast, hsigned, hroot⟩
    refine ⟨hshown, fun h => hencrypted ((hkind.eq h).2), fun h later child hlt hchild => ?_,
      fun h => hsigned ((hkind.eq h).2), fun h => hroot ((hkind.eq h).2)⟩
    exact hlast ((hkind.eq h).2) later child hchild (by rwa [Nat.zero_add])

section Multipart

variable {part : MessagePart} {mediaSubtype : String} (hkind : part.Is "multipart" mediaSubtype)
  (hshown : part.disposition ≠ some "attachment")
  (hchildren : ∀ child ∈ part.children, Selects child)

include hkind hshown hchildren

omit hshown in
/-- A multipart of which one child is read. -/
theorem selects_one (position : ℕ) (hadmits : ∀ n, n = position ↔ Admits part n)
    (hvisit : ∀ walk, visit part walk =
      (part.children[position]?.map fun child => visit child walk).getD walk) : Selects part := by
  obtain ⟨leaves, hpicks, hparts⟩ := visit_child_selects hchildren (labels_children part) position
  exact ⟨leaves, picks_multipart ⟨_, hkind⟩ hadmits hpicks, fun walk => by rw [hvisit, hparts]⟩

theorem selects_alternative (hsub : mediaSubtype = "alternative") : Selects part := by
  subst hsub
  obtain ⟨leaves, hpicks, -, hparts⟩ := visitAlternatives_selects hchildren (labels_children part)
  refine ⟨leaves, picks_multipart ⟨_, hkind⟩ (fun position => ?_) hpicks, fun walk => ?_⟩
  · rw [admits_iff hkind hshown (by decide)]
    simp
  · rw [visit_multipart hkind hshown, if_pos rfl]
    simp only [(hparts walk none).1, (hparts walk none).2]
    split <;> simp [*]

theorem selects_signed (hsub : mediaSubtype = "signed") : Selects part := by
  subst hsub
  refine selects_one hkind hchildren 0 (fun position => ?_) fun walk => ?_
  · rw [admits_iff hkind hshown (by decide)]
    simp
  · rw [visit_multipart hkind hshown, if_neg (by decide), if_pos rfl, visitFirst_eq]

theorem selects_related (hsub : mediaSubtype = "related") : Selects part := by
  subst hsub
  refine selects_one hkind hchildren part.rootPosition (fun position => ?_) fun walk => ?_
  · rw [admits_iff hkind hshown (by decide)]
    simp
  · rw [visit_multipart hkind hshown, if_neg (by decide), if_neg (by decide), if_neg (by decide),
      if_pos rfl]

/-- Every child of a multipart is read, of which the other rules say nothing. -/
theorem selects_mixed (halternative : mediaSubtype ≠ "alternative")
    (hsigned : mediaSubtype ≠ "signed") (hencrypted : mediaSubtype ≠ "encrypted")
    (hrelated : mediaSubtype ≠ "related") : Selects part := by
  obtain ⟨leaves, hpicks, hparts⟩ := visitAll_selects hchildren (labels_children part)
  refine ⟨leaves, picks_multipart ⟨_, hkind⟩ (fun position => ?_) hpicks, fun walk => ?_⟩
  · rw [admits_iff hkind hshown hencrypted]
    simp [halternative, hsigned, hrelated]
  · rw [visit_multipart hkind hshown, if_neg halternative, if_neg hsigned, if_neg hencrypted,
      if_neg hrelated]
    exact hparts walk

omit hchildren in
theorem selects_encrypted (hsub : mediaSubtype = "encrypted") : Selects part := by
  subst hsub
  refine selects_nothing (fun path hchosen => ?_) fun walk => ?_
  · cases path with
    | nil => exact (chosen_nil.mp hchosen).2.1.not_isMultipart ⟨_, hkind⟩
    | cons position path => exact (chosen_cons.mp hchosen).1.readable hkind
  · rw [visit_multipart hkind hshown, if_neg (by decide), if_neg (by decide), if_pos rfl]

theorem selects_multipart : Selects part := by
  by_cases halternative : mediaSubtype = "alternative"
  · exact selects_alternative hkind hshown hchildren halternative
  by_cases hsigned : mediaSubtype = "signed"
  · exact selects_signed hkind hshown hchildren hsigned
  by_cases hencrypted : mediaSubtype = "encrypted"
  · exact selects_encrypted hkind hshown hencrypted
  by_cases hrelated : mediaSubtype = "related"
  · exact selects_related hkind hshown hchildren hrelated
  exact selects_mixed hkind hshown hchildren halternative hsigned hencrypted hrelated

end Multipart

theorem selects_attachment {part : MessagePart} (h : part.disposition = some "attachment") :
    Selects part := by
  refine selects_nothing (fun path hchosen => ?_) fun walk => by rw [visit_attachment h]
  cases path with
  | nil => exact (chosen_nil.mp hchosen).2.2.2 h
  | cons position path => exact (chosen_cons.mp hchosen).1.shown h

theorem selects_single {part : MessagePart} (htyped : Typed part) (hsingle : ¬part.IsMultipart)
    (hshown : part.disposition ≠ some "attachment") : Selects part := by
  have hchosen := chosen_iff_nil htyped hsingle
  obtain ⟨section', mediaType, mediaSubtype, parameters, disposition, contentId, children⟩ := part
  have hmedia : mediaType ≠ "multipart" := fun he => hsingle ⟨mediaSubtype, he, rfl⟩
  have hshown' : disposition ≠ some "attachment" := hshown
  by_cases hplain : mediaType = "text" ∧ mediaSubtype = "plain"
  · cases hfile : MessagePart.isAttachedFile
      (.mk section' mediaType mediaSubtype parameters disposition contentId children) with
    | true =>
      refine selects_nothing (fun path h => ?_) fun walk => ?_
      · exact absurd (hfile.symm.trans ((hchosen path).mp h).2.2.1) (by decide)
      · rw [visit, if_neg hshown', if_neg hmedia, if_pos hplain, if_pos hfile]
    | false =>
      refine ⟨[[]], ⟨List.pairwise_singleton _ _, fun path => ?_⟩, fun walk => ?_⟩
      · rw [hchosen, List.mem_singleton]
        exact (and_iff_left ⟨hplain, hfile, hshown⟩).symm
      · rw [visit, if_neg hshown', if_neg hmedia, if_pos hplain, if_neg (by simp [hfile])]
        simp [MessagePart.sectionAt, MessagePart.sectionNumbers]
  · refine selects_nothing (fun path h => hplain ((hchosen path).mp h).2.1) fun walk => ?_
    rw [visit, if_neg hshown', if_neg hmedia, if_neg hplain]
    split_ifs <;> rfl

/-- **The walk chooses the leaves to read**, whatever was found before. -/
theorem selects (part : MessagePart) (htyped : Typed part) : Selects part := by
  by_cases hshown : part.disposition = some "attachment"
  · exact selects_attachment hshown
  by_cases hmultipart : part.IsMultipart
  · obtain ⟨mediaSubtype, hkind⟩ := hmultipart
    refine selects_multipart hkind hshown fun child hchild => ?_
    have hsmaller : sizeOf child < sizeOf part := by
      obtain ⟨position, hposition⟩ := List.mem_iff_getElem?.mp hchild
      exact MessagePart.sizeOf_child hposition
    exact selects child (htyped.child hchild)
  · exact selects_single htyped hmultipart hshown
termination_by sizeOf part

end Mailbag.Imap
