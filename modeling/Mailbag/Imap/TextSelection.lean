import Mailbag.Imap.TextWalk

/-!
# Which text parts are read

BODYSTRUCTURE describes a message as a tree of bodies. The reader projects it to part
descriptions and gives each its section numbers (`project`); the content rules walk the
descriptions and choose sections; a FETCH command names them.

## What is proved

* `selectTextParts_leaves` — the sections chosen are those of the chosen leaves, in reading
  order, each the path of child numbers of its leaf, and FETCH names the same leaves.
-/

namespace Mailbag.Imap

open Cycle

/-! ### The sections of the message -/

@[simp] theorem projectFrom_getElem? (bodies : List BodyStructure) (n i : ℕ)
    (section' : List UInt32) :
    (projectFrom n bodies section')[i]? =
      bodies[i]?.map fun body => project body (section' ++ [sectionNumber (n + i)]) := by
  induction bodies generalizing n i with
  | nil => simp [projectFrom]
  | cons body bodies ih =>
    rw [projectFrom]
    cases i with
    | zero => simp
    | succ i => simp [ih, Nat.add_assoc, Nat.add_comm 1 i]

theorem children_project (body : BodyStructure) (section' : List UInt32) (i : ℕ) :
    (project body section').children[i]? =
      body.bodies[i]?.map fun child => project child (section' ++ [sectionNumber i]) := by
  cases body with
  | multipart => simp [project, describe, MessagePart.children, BodyStructure.bodies]
  | basic => simp [project, describe, MessagePart.children, BodyStructure.bodies]
  | text => simp [project, describe, MessagePart.children, BodyStructure.bodies]
  | message => simp [project, describe, MessagePart.children, BodyStructure.bodies]

/-- **The projection keeps the tree**: the part at a place describes the body there, under the
path of its child numbers. -/
theorem partAt_project (body : BodyStructure) (section' : List UInt32) (path : List ℕ) :
    (project body section').partAt path =
      (body.bodyAt path).map fun inner => project inner (section' ++ path.map sectionNumber) := by
  induction path generalizing body section' with
  | nil => simp [BodyStructure.bodyAt]
  | cons position path ih =>
    rw [MessagePart.partAt_cons, children_project, BodyStructure.bodyAt]
    cases body.bodies[position]? with
    | none => rfl
    | some child => simp [ih]

theorem sectionNumbers_project (body : BodyStructure) (section' : List UInt32) :
    (project body section').sectionNumbers = section' := by
  cases body <;> simp [project, describe, MessagePart.sectionNumbers]

theorem children_project_eq_nil (body : BodyStructure) (section' : List UInt32) :
    (project body section').children = [] ↔ body.bodies = [] := by
  constructor
  · intro h
    cases hbodies : body.bodies with
    | nil => rfl
    | cons child bodies =>
      have := children_project body section' 0
      rw [h, hbodies] at this
      simp at this
  · intro h
    cases hchildren : (project body section').children with
    | nil => rfl
    | cons child children =>
      have := children_project body section' 0
      rw [h, hchildren] at this
      simp at this

theorem typed_project (body : BodyStructure) (section' : List UInt32) :
    Typed (project body section') := by
  intro path inner hinner hchildren
  rw [partAt_project, Option.map_eq_some_iff] at hinner
  obtain ⟨body', -, rfl⟩ := hinner
  cases body' with
  | multipart subtype =>
    exact ⟨toAsciiLowercase subtype, (by decide : toAsciiLowercase "multipart" = "multipart"), rfl⟩
  | basic => exact absurd rfl hchildren
  | text => exact absurd rfl hchildren
  | message => exact absurd rfl hchildren

/-- The section of a place in a message. -/
def BodyStructure.sectionOf (body : BodyStructure) (path : List ℕ) : List UInt32 :=
  body.ownSection ++ path.map sectionNumber

/-- The sections FETCH reads a leaf by: the header of a message of one part, else the leaf's own. -/
def BodyStructure.sectionNames (body : BodyStructure) (path : List ℕ) : SectionName × SectionName :=
  match body with
  | .multipart .. => (.partHeader (body.sectionOf path), .part (body.sectionOf path))
  | _ => (.messageHeader, .part [1])

/-- The body that the section numbers of a part name: each is the number of a child, counted
from 1; a message of one part is its part 1. -/
def BodyStructure.named (body : BodyStructure) (section' : List UInt32) : Option BodyStructure :=
  match body with
  | .multipart .. =>
    if 0 ∈ section' then none else body.bodyAt (section'.map fun number => number.toNat - 1)
  | _ => if section' = [1] then some body else none

/-- Every child of a multipart has a number of its own. -/
def Numbered (body : BodyStructure) : Prop :=
  ∀ path inner, body.bodyAt path = some inner → inner.bodies.length < 2 ^ 32

/-- The sections chosen. -/
def TextSelection.sections : TextSelection → List (List UInt32)
  | .parts sections => sections
  | .explained _ => []

theorem sections_selectTextParts (root : MessagePart) :
    (selectTextParts root).sections = (walkMessage root).parts := by
  rw [selectTextParts]
  cases (walkMessage root).parts with
  | nil => cases (walkMessage root).explanation <;> rfl
  | cons => rfl

theorem ne_nil_of_selectTextParts {root : MessagePart} {sections : List (List UInt32)}
    (h : selectTextParts root = .parts sections) : sections ≠ [] := by
  rw [selectTextParts] at h
  cases hparts : (walkMessage root).parts with
  | nil =>
    rw [hparts] at h
    cases hexplanation : (walkMessage root).explanation <;> simp [hexplanation] at h
  | cons section' rest =>
    simp only [hparts, TextSelection.parts.injEq] at h
    exact h ▸ List.cons_ne_nil _ _

theorem positions_lt {body inner : BodyStructure} {path : List ℕ} (hnumbered : Numbered body)
    (h : body.bodyAt path = some inner) : ∀ position ∈ path, position + 1 < 2 ^ 32 := by
  induction path generalizing body with
  | nil => exact fun _ hp => absurd hp List.not_mem_nil
  | cons position path ih =>
    rw [BodyStructure.bodyAt] at h
    obtain ⟨child, hchild, hinner⟩ := Option.bind_eq_some_iff.mp h
    have hchildren : Numbered child := by
      intro path' inner' h'
      refine hnumbered (position :: path') inner' ?_
      rw [BodyStructure.bodyAt, hchild]
      exact h'
    refine List.forall_mem_cons.mpr ⟨?_, ih hchildren hinner⟩
    have hlength := hnumbered [] body (by rw [BodyStructure.bodyAt])
    have := (List.getElem?_eq_some_iff.mp hchild).1
    omega

theorem sectionNumber_toNat {position : ℕ} (h : position + 1 < 2 ^ 32) :
    (sectionNumber position).toNat = position + 1 := by
  rw [sectionNumber, UInt32.toNat_ofNat']
  exact Nat.mod_eq_of_lt h

/-- Numbering the children keeps the reading order. -/
theorem sectionNumber_lt {path path' : List ℕ} (h : path < path')
    (hpath : ∀ position ∈ path, position + 1 < 2 ^ 32)
    (hpath' : ∀ position ∈ path', position + 1 < 2 ^ 32) :
    path.map sectionNumber < path'.map sectionNumber := by
  induction path generalizing path' with
  | nil =>
    cases path' with
    | nil => exact absurd h (List.lt_irrefl _)
    | cons position' path' => exact List.nil_lt_cons _ _
  | cons position path ih =>
    cases path' with
    | nil => exact absurd h (List.not_lt_nil _)
    | cons position' path' =>
      obtain ⟨hposition, hrest⟩ := List.forall_mem_cons.mp hpath
      obtain ⟨hposition', hrest'⟩ := List.forall_mem_cons.mp hpath'
      rw [List.map_cons, List.map_cons, List.cons_lt_cons_iff]
      rcases List.cons_lt_cons_iff.mp h with hlt | ⟨rfl, hlt⟩
      · refine .inl (UInt32.lt_iff_toNat_lt.mpr ?_)
        rw [sectionNumber_toNat hposition, sectionNumber_toNat hposition']
        omega
      · exact .inr ⟨rfl, ih hlt hrest hrest'⟩

/-- A section names the body at its place. -/
theorem named_sectionOf {body inner : BodyStructure} {path : List ℕ} (hnumbered : Numbered body)
    (h : body.bodyAt path = some inner) : body.named (body.sectionOf path) = some inner := by
  have hsingle : body.bodies = [] → path = [] ∧ body = inner := by
    intro hbodies
    cases path with
    | nil => exact ⟨rfl, by simpa [BodyStructure.bodyAt] using h⟩
    | cons position path => simp [BodyStructure.bodyAt, hbodies] at h
  cases body with
  | multipart subtype params disposition bodies =>
    have hlt := positions_lt hnumbered h
    rw [BodyStructure.named, BodyStructure.sectionOf, BodyStructure.ownSection, List.nil_append]
    have hzero : 0 ∉ path.map sectionNumber := by
      intro hmem
      obtain ⟨position, hposition, hzero⟩ := List.mem_map.mp hmem
      have := sectionNumber_toNat (hlt position hposition)
      rw [hzero] at this
      cases this
    have hback : (path.map sectionNumber).map (fun number => number.toNat - 1) = path := by
      rw [List.map_map]
      refine (List.map_congr_left fun position hposition => ?_).trans (List.map_id path)
      show (sectionNumber position).toNat - 1 = position
      rw [sectionNumber_toNat (hlt position hposition), Nat.add_sub_cancel]
    rw [if_neg hzero, hback, h]
  | basic =>
    obtain ⟨rfl, rfl⟩ := hsingle rfl
    rfl
  | text =>
    obtain ⟨rfl, rfl⟩ := hsingle rfl
    rfl
  | message =>
    obtain ⟨rfl, rfl⟩ := hsingle rfl
    rfl

theorem sectionAt_fromBodyStructure {body : BodyStructure} {path : List ℕ} {leaf : MessagePart}
    (h : (fromBodyStructure body).partAt path = some leaf) :
    (fromBodyStructure body).sectionAt path = body.sectionOf path := by
  rw [fromBodyStructure, partAt_project, Option.map_eq_some_iff] at h
  obtain ⟨inner, hinner, -⟩ := h
  rw [MessagePart.sectionAt, fromBodyStructure, partAt_project, hinner]
  exact sectionNumbers_project _ _

/-- A message without children has no leaf but itself. -/
theorem eq_singleton_nil {root : MessagePart} {leaves : List (List ℕ)}
    (hpicks : Picks leaves (Chosen root)) (hne : leaves ≠ [])
    (hchildren : root.children = []) : leaves = [[]] := by
  have hnil : ∀ path ∈ leaves, path = [] := by
    intro path hpath
    cases path with
    | nil => rfl
    | cons position path =>
      obtain ⟨-, child, hchild, -⟩ := chosen_cons.mp ((hpicks.mem _).mp hpath)
      simp [hchildren] at hchild
  obtain ⟨path, rest, rfl⟩ := List.exists_cons_of_ne_nil hne
  obtain rfl := hnil path List.mem_cons_self
  cases rest with
  | nil => rfl
  | cons path' rest =>
    obtain rfl := hnil path' (by simp)
    exact absurd ((List.pairwise_cons.mp hpicks.ordered).1 [] List.mem_cons_self) (List.lt_irrefl _)

/-- FETCH names the leaves chosen. -/
theorem sectionPaths_textParts {body : BodyStructure} {leaves : List (List ℕ)}
    (hpicks : Picks leaves (Chosen (fromBodyStructure body))) (hne : leaves ≠ []) :
    sectionPaths (textParts (fromBodyStructure body) (leaves.map body.sectionOf)) =
      leaves.map body.sectionNames := by
  have hone := eq_singleton_nil hpicks hne
  cases body with
  | multipart subtype params disposition bodies =>
    cases bodies with
    | nil =>
      obtain rfl := hone rfl
      have hplain := (chosen_nil.mp ((hpicks.mem []).mp List.mem_cons_self)).2.1
      exact absurd ⟨toAsciiLowercase subtype,
        (by decide : toAsciiLowercase "multipart" = "multipart"), rfl⟩ hplain.not_isMultipart
    | cons child bodies =>
      show sectionPaths (.multipartLeaves _) = _
      rw [sectionPaths, List.map_map]
      rfl
  | basic =>
    obtain rfl := hone rfl
    rfl
  | text =>
    obtain rfl := hone rfl
    rfl
  | message =>
    obtain rfl := hone rfl
    rfl

theorem sectionOf_lt {body : BodyStructure} {path path' : List ℕ}
    (h : path.map sectionNumber < path'.map sectionNumber) :
    body.sectionOf path < body.sectionOf path' := by
  cases body with
  | multipart => exact h
  | basic => exact List.cons_lt_cons_self.mpr h
  | text => exact List.cons_lt_cons_self.mpr h
  | message => exact List.cons_lt_cons_self.mpr h

/-- **The text parts chosen** of every message. -/
theorem selectTextParts_leaves (body : BodyStructure) :
    ∃ leaves : List (List ℕ), leaves.Pairwise (· < ·) ∧
      (∀ path, path ∈ leaves ↔ Chosen (fromBodyStructure body) path) ∧
      (selectTextParts (fromBodyStructure body)).sections = leaves.map body.sectionOf ∧
      (∀ path ∈ leaves, ∃ leaf, body.bodyAt path = some leaf ∧ leaf.bodies = [] ∧
        (fromBodyStructure body).partAt path = some (project leaf (body.sectionOf path))) ∧
      (∀ sections, selectTextParts (fromBodyStructure body) = .parts sections →
        sectionPaths (textParts (fromBodyStructure body) sections) = leaves.map body.sectionNames) ∧
      (Numbered body → (leaves.map body.sectionOf).Pairwise (· < ·) ∧
        ∀ path ∈ leaves, body.named (body.sectionOf path) = body.bodyAt path) := by
  obtain ⟨leaves, hpicks, hvisit⟩ := selects (fromBodyStructure body) (typed_project _ _)
  have hat : ∀ path ∈ leaves, ∃ leaf, body.bodyAt path = some leaf ∧ leaf.bodies = [] ∧
      (fromBodyStructure body).partAt path = some (project leaf (body.sectionOf path)) := by
    intro path hpath
    have hchosen := (hpicks.mem path).mp hpath
    rw [Chosen] at hchosen
    obtain ⟨⟨part, hpart, hleaf, -⟩, -⟩ := hchosen
    have hproject := partAt_project body body.ownSection path
    obtain ⟨leaf, hbody, rfl⟩ := Option.map_eq_some_iff.mp (hproject.symm.trans hpart)
    exact ⟨leaf, hbody, (children_project_eq_nil _ _).mp hleaf, hpart⟩
  have hsections : (selectTextParts (fromBodyStructure body)).sections =
      leaves.map body.sectionOf := by
    rw [sections_selectTextParts, walkMessage, hvisit]
    refine List.map_congr_left fun path hpath => ?_
    obtain ⟨leaf, -, -, hpart⟩ := hat path hpath
    exact sectionAt_fromBodyStructure hpart
  refine ⟨leaves, hpicks.ordered, hpicks.mem, hsections, hat, fun sections hparts => ?_,
    fun hnumbered => ⟨?_, fun path hpath => ?_⟩⟩
  · rw [hparts] at hsections
    obtain rfl : sections = leaves.map body.sectionOf := hsections
    refine sectionPaths_textParts hpicks ?_
    rintro rfl
    exact ne_nil_of_selectTextParts hparts rfl
  · refine List.pairwise_map.mpr (hpicks.ordered.imp_of_mem fun hpath hpath' hlt => ?_)
    obtain ⟨_, hbody, -⟩ := hat _ hpath
    obtain ⟨_, hbody', -⟩ := hat _ hpath'
    exact sectionOf_lt (sectionNumber_lt hlt (positions_lt hnumbered hbody)
      (positions_lt hnumbered hbody'))
  · obtain ⟨leaf, hbody, -⟩ := hat path hpath
    rw [named_sectionOf hnumbered hbody, hbody]

end Mailbag.Imap
