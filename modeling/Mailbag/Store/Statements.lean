import Mailbag.Store.Operations

/-!
# What one statement of the store can do

Every operation that writes is a sequence of statements on the rows of one account.
`Statement account` lists what one such statement can do: update rows without touching
their keys, insert a row with a new identifier and a new key, relate a folder and a
message of the account, delete folders or messages with their memberships, delete
memberships of the account's folders. `Linked` is what the schema's keys and references
keep after every statement. Both facts about a statement, that it keeps `Linked`
(`Statement.linked`) and that it touches no row of another account (`Statement.part`),
are proved here once; the operations are then decomposed into statements.
-/

namespace Mailbag.Store

open Collections Relation

/-- The rows are linked as the schema's keys and references say: identifiers and keys are
unique, a membership joins a folder and a message of one account, and no account is
unnamed. -/
structure Linked (t : Tables) : Prop where
  /-- Folder identifiers are unique. -/
  folderIds : Unique StoredFolder.id t.folders
  /-- No account has two folders of one identity. -/
  folderKeys : Unique StoredFolder.key t.folders
  /-- Message identifiers are unique. -/
  messageIds : Unique StoredMessage.id t.messages
  /-- No account has two messages of one identity. -/
  messageKeys : Unique StoredMessage.key t.messages
  /-- A message is in a folder once. -/
  memberships : t.memberships.Nodup
  /-- A membership joins a folder and a message of the same account. -/
  joins : ∀ m ∈ t.memberships, ∃ f ∈ t.folders, ∃ g ∈ t.messages, f.id = m.folder ∧
    g.id = m.message ∧ f.account = g.account
  /-- A folder's account is a nonempty text. -/
  named : ∀ f ∈ t.folders, f.account ≠ ""

theorem linked_empty : Linked .empty where
  folderIds := unique_nil
  folderKeys := unique_nil
  messageIds := unique_nil
  messageKeys := unique_nil
  memberships := List.nodup_nil
  joins _ hm := absurd hm List.not_mem_nil
  named _ hf := absurd hf List.not_mem_nil

/-- What one statement of an operation on an account's rows can do. -/
inductive Statement (account : AccountId) (t u : Tables) : Prop
  /-- Update folder rows of the account, not their keys. -/
  | updateFolders (f : StoredFolder → StoredFolder) (hid : ∀ r, (f r).id = r.id)
      (hkey : ∀ r, (f r).key = r.key)
      (hothers : ∀ r ∈ t.folders, r.account ≠ account.asStr → f r = r)
      (hu : u = { t with folders := t.folders.map f })
  /-- Update message rows of the account, not their keys. -/
  | updateMessages (f : StoredMessage → StoredMessage) (hid : ∀ r, (f r).id = r.id)
      (hkey : ∀ r, (f r).key = r.key)
      (hothers : ∀ r ∈ t.messages, r.account ≠ account.asStr → f r = r)
      (hu : u = { t with messages := t.messages.map f })
  /-- Insert a folder row. -/
  | insertFolder (row : StoredFolder) (haccount : row.account = account.asStr)
      (hid : ∀ r ∈ t.folders, r.id ≠ row.id) (hkey : ∀ r ∈ t.folders, r.key ≠ row.key)
      (hu : u = { t with folders := t.folders ++ [row] })
  /-- Insert a message row. -/
  | insertMessage (row : StoredMessage) (haccount : row.account = account.asStr)
      (hid : ∀ r ∈ t.messages, r.id ≠ row.id) (hkey : ∀ r ∈ t.messages, r.key ≠ row.key)
      (hu : u = { t with messages := t.messages ++ [row] })
  /-- Relate a folder and a message of the account. -/
  | relate (f : StoredFolder) (g : StoredMessage) (hf : f ∈ t.folders) (hg : g ∈ t.messages)
      (haccount : f.account = account.asStr) (haccount' : g.account = account.asStr)
      (hu : u = t.relate f.id g.id)
  /-- Delete folders of the account with their memberships. -/
  | deleteFolders (p : StoredFolder → Bool)
      (hp : ∀ r ∈ t.folders, p r = true → r.account = account.asStr)
      (hu : u = t.deleteFoldersWhere p)
  /-- Delete messages of the account with their memberships. -/
  | deleteMessages (p : StoredMessage → Bool)
      (hp : ∀ r ∈ t.messages, p r = true → r.account = account.asStr)
      (hu : u = t.deleteMessagesWhere p)
  /-- Delete memberships of a folder of the account. -/
  | deleteMemberships (p : Membership → Bool) (f : StoredFolder) (hf : f ∈ t.folders)
      (haccount : f.account = account.asStr)
      (hp : ∀ m ∈ t.memberships, p m = false → m.folder = f.id)
      (hu : u = { t with memberships := t.memberships.filter p })

/-- Statements one after another. -/
abbrev Statements (account : AccountId) : Tables → Tables → Prop := ReflTransGen (Statement account)

/-- Whether a membership's folder is of the account. -/
def Tables.inAccount (t : Tables) (account : String) (m : Membership) : Bool :=
  t.folders.any fun f => f.id = m.folder && f.account = account

/-- The rows of one account: its folders, its messages and the memberships of its folders. -/
def Tables.part (t : Tables) (account : String) : Tables where
  folders := t.folders.filter fun r => r.account = account
  messages := t.messages.filter fun r => r.account = account
  memberships := t.memberships.filter (t.inAccount account)

theorem Tables.inAccount_iff {t : Tables} {account : String} {m : Membership} :
    t.inAccount account m = true ↔ ∃ f ∈ t.folders, f.id = m.folder ∧ f.account = account := by
  simp [Tables.inAccount]

variable {account : AccountId} {t u : Tables}

/-! ### The keys and references -/

theorem Linked.relate (h : Linked t) {f : StoredFolder} {g : StoredMessage} (hf : f ∈ t.folders)
    (hg : g ∈ t.messages) (haccount : f.account = g.account) : Linked (t.relate f.id g.id) := by
  rw [Tables.relate]
  split
  · exact h
  · rename_i hm
    refine { h with memberships := ?_, joins := ?_ }
    · refine List.nodup_append.mpr ⟨h.memberships, List.nodup_singleton _, ?_⟩
      rintro m hm' m' hm'' rfl
      rw [List.mem_singleton] at hm''
      exact hm (hm'' ▸ hm')
    · intro m hm'
      rcases List.mem_append.mp hm' with hm' | hm'
      · exact h.joins m hm'
      · rw [List.mem_singleton] at hm'
        subst hm'
        exact ⟨f, hf, g, hg, rfl, rfl, haccount⟩

theorem Linked.deleteFoldersWhere (h : Linked t) (p : StoredFolder → Bool) :
    Linked (t.deleteFoldersWhere p) where
  folderIds := h.folderIds.filter _
  folderKeys := h.folderKeys.filter _
  messageIds := h.messageIds
  messageKeys := h.messageKeys
  memberships := h.memberships.filter _
  joins m hm := by
    obtain ⟨hm, hkept⟩ := List.mem_filter.mp hm
    obtain ⟨f, hf, g, hg, hfid, hgid, hacc⟩ := h.joins m hm
    refine ⟨f, List.mem_filter.mpr ⟨hf, ?_⟩, g, hg, hfid, hgid, hacc⟩
    simp only [Bool.not_eq_eq_eq_not, Bool.not_true, List.any_eq_false, Bool.and_eq_true,
      beq_iff_eq, not_and] at hkept
    by_contra hp
    exact hkept f hf (by simpa using hp) hfid
  named f hf := h.named f (List.mem_filter.mp hf).1

theorem Linked.deleteMessagesWhere (h : Linked t) (p : StoredMessage → Bool) :
    Linked (t.deleteMessagesWhere p) where
  folderIds := h.folderIds
  folderKeys := h.folderKeys
  messageIds := h.messageIds.filter _
  messageKeys := h.messageKeys.filter _
  memberships := h.memberships.filter _
  joins m hm := by
    obtain ⟨hm, hkept⟩ := List.mem_filter.mp hm
    obtain ⟨f, hf, g, hg, hfid, hgid, hacc⟩ := h.joins m hm
    refine ⟨f, hf, g, List.mem_filter.mpr ⟨hg, ?_⟩, hfid, hgid, hacc⟩
    simp only [Bool.not_eq_eq_eq_not, Bool.not_true, List.any_eq_false, Bool.and_eq_true,
      beq_iff_eq, not_and] at hkept
    by_contra hp
    exact hkept g hg (by simpa using hp) hgid
  named := h.named

/-- Every statement keeps the keys and references. -/
theorem Statement.linked (hs : Statement account t u) (h : Linked t) : Linked u := by
  cases hs with
  | updateFolders f hid hkey _ hu =>
    have hacc : ∀ r, (f r).account = r.account := fun r => congrArg Prod.fst (hkey r)
    subst hu
    refine { h with
        folderIds := h.folderIds.map hid
        folderKeys := h.folderKeys.map hkey
        joins := ?_
        named := ?_ }
    · intro m hm
      obtain ⟨r, hr, g, hg, hrid, hgid, hjoin⟩ := h.joins m hm
      exact ⟨f r, List.mem_map_of_mem hr, g, hg, (hid r).trans hrid, hgid, (hacc r).trans hjoin⟩
    · intro r hr
      obtain ⟨r, hr', rfl⟩ := List.mem_map.mp hr
      rw [hacc r]
      exact h.named r hr'
  | updateMessages f hid hkey _ hu =>
    subst hu
    refine { h with
        messageIds := h.messageIds.map hid
        messageKeys := h.messageKeys.map hkey
        joins := ?_ }
    intro m hm
    obtain ⟨r, hr, g, hg, hrid, hgid, hjoin⟩ := h.joins m hm
    refine ⟨r, hr, f g, List.mem_map_of_mem hg, hrid, (hid g).trans hgid, hjoin.trans ?_⟩
    exact (congrArg Prod.fst (hkey g)).symm
  | insertFolder row haccount hid hkey hu =>
    subst hu
    refine { h with
      folderIds := h.folderIds.append_one hid
      folderKeys := h.folderKeys.append_one hkey
      joins := ?_
      named := ?_ }
    · intro m hm
      obtain ⟨r, hr, g, hg, hrest⟩ := h.joins m hm
      exact ⟨r, List.mem_append_left _ hr, g, hg, hrest⟩
    · intro r hr
      rcases List.mem_append.mp hr with hr | hr
      · exact h.named r hr
      · rw [List.mem_singleton.mp hr, haccount]
        exact account.nonempty
  | insertMessage row _ hid hkey hu =>
    subst hu
    refine { h with
      messageIds := h.messageIds.append_one hid
      messageKeys := h.messageKeys.append_one hkey
      joins := ?_ }
    intro m hm
    obtain ⟨r, hr, g, hg, hrest⟩ := h.joins m hm
    exact ⟨r, hr, g, List.mem_append_left _ hg, hrest⟩
  | relate f g hf hg haccount haccount' hu =>
    exact hu ▸ h.relate hf hg (haccount.trans haccount'.symm)
  | deleteFolders p _ hu => exact hu ▸ h.deleteFoldersWhere p
  | deleteMessages p _ hu => exact hu ▸ h.deleteMessagesWhere p
  | deleteMemberships p _ _ _ _ hu =>
    subst hu
    exact { h with
        memberships := h.memberships.filter p
        joins := fun m hm => h.joins m (List.mem_filter.mp hm).1 }

theorem Statements.linked (hs : Statements account t u) (h : Linked t) : Linked u := by
  induction hs with
  | refl => exact h
  | tail _ hs ih => exact hs.linked ih

/-! ### The rows of other accounts -/

/-- A statement on an account's rows leaves the folder rows of every other account. -/
theorem Statement.part_folders (hs : Statement account t u) {other : String}
    (hother : other ≠ account.asStr) :
    (u.folders.filter fun r => r.account = other) =
      t.folders.filter fun r => r.account = other := by
  cases hs with
  | updateFolders f _ hkey hothers hu =>
    have hacc : ∀ r, (f r).account = r.account := fun r => congrArg Prod.fst (hkey r)
    subst hu
    refine filter_map_of_fixed (fun r _ => by rw [hacc r]) fun r hr hp => hothers r hr ?_
    rw [decide_eq_true_iff] at hp
    exact hp ▸ hother
  | insertFolder row haccount _ _ hu => simp [hu, haccount, hother.symm]
  | deleteFolders p hp hu =>
    rw [hu, Tables.deleteFoldersWhere, List.filter_filter]
    refine List.filter_congr fun r hr => ?_
    have := hp r hr
    grind
  | relate _ _ _ _ _ _ hu =>
    rw [hu, Tables.relate]
    split <;> rfl
  | updateMessages _ _ _ _ hu => rw [hu]
  | insertMessage _ _ _ _ hu => rw [hu]
  | deleteMessages _ _ hu => rw [hu, Tables.deleteMessagesWhere]
  | deleteMemberships _ _ _ _ _ hu => rw [hu]

/-- A statement on an account's rows leaves the message rows of every other account. -/
theorem Statement.part_messages (hs : Statement account t u) {other : String}
    (hother : other ≠ account.asStr) :
    (u.messages.filter fun r => r.account = other) =
      t.messages.filter fun r => r.account = other := by
  cases hs with
  | updateMessages f _ hkey hothers hu =>
    have hacc : ∀ r, (f r).account = r.account := fun r => congrArg Prod.fst (hkey r)
    subst hu
    refine filter_map_of_fixed (fun r _ => by rw [hacc r]) fun r hr hp => hothers r hr ?_
    rw [decide_eq_true_iff] at hp
    exact hp ▸ hother
  | insertMessage row haccount _ _ hu => simp [hu, haccount, hother.symm]
  | deleteMessages p hp hu =>
    rw [hu, Tables.deleteMessagesWhere, List.filter_filter]
    refine List.filter_congr fun r hr => ?_
    have := hp r hr
    grind
  | relate _ _ _ _ _ _ hu =>
    rw [hu, Tables.relate]
    split <;> rfl
  | updateFolders _ _ _ _ hu => rw [hu]
  | insertFolder _ _ _ _ hu => rw [hu]
  | deleteFolders _ _ hu => rw [hu, Tables.deleteFoldersWhere]
  | deleteMemberships _ _ _ _ _ hu => rw [hu]

theorem Linked.inAccount_eq (h : Linked t) {f : StoredFolder} (hf : f ∈ t.folders) {m : Membership}
    (hm : f.id = m.folder) (other : String) : t.inAccount other m = decide (f.account = other) := by
  rw [Bool.eq_iff_iff, Tables.inAccount_iff, decide_eq_true_iff]
  constructor
  · rintro ⟨r, hr, hrm, hacc⟩
    rwa [h.folderIds.eq_of_key hf hr (hm.trans hrm.symm)]
  · exact fun hacc => ⟨f, hf, hm, hacc⟩

/-- A statement on an account's rows leaves the memberships of every other account. -/
theorem Statement.part_memberships (hs : Statement account t u) (h : Linked t) {other : String}
    (hother : other ≠ account.asStr) :
    u.memberships.filter (u.inAccount other) = t.memberships.filter (t.inAccount other) := by
  have hu' := hs.linked h
  cases hs with
  | updateFolders f hid hkey _ hu =>
    have hacc : ∀ r, (f r).account = r.account := fun r => congrArg Prod.fst (hkey r)
    subst hu
    refine List.filter_congr fun m _ => ?_
    simp only [Tables.inAccount, List.any_map, Function.comp_def, hid, hacc]
  | updateMessages f _ _ _ hu => rw [hu]; rfl
  | insertFolder row haccount _ _ hu =>
    subst hu
    refine List.filter_congr fun m _ => ?_
    simp [Tables.inAccount, haccount, hother.symm]
  | insertMessage row _ _ _ hu => rw [hu]; rfl
  | relate f g hf hg haccount _ hu =>
    subst hu
    rw [Tables.relate]
    split
    · rfl
    · have hnew : t.inAccount other ⟨f.id, g.id⟩ = false := by
        rw [h.inAccount_eq hf rfl, haccount]
        simpa using hother.symm
      show (t.memberships ++ [Membership.mk f.id g.id]).filter (t.inAccount other) = _
      simp [List.filter_append, hnew]
  | deleteFolders p hp hu =>
    subst hu
    rw [Tables.deleteFoldersWhere, List.filter_filter]
    refine List.filter_congr fun m hm => ?_
    obtain ⟨f, hf, _, _, hfid, _, _⟩ := h.joins m hm
    show ((t.deleteFoldersWhere p).inAccount other m && _) = _
    rw [h.inAccount_eq hf hfid]
    by_cases hacc : f.account = other
    · -- the membership's folder is of the other account, so it is not deleted
      have hpf : p f = false := by
        by_contra hpf
        exact hother (hacc.symm.trans (hp f hf (by simpa using hpf)))
      have hkept : f ∈ (t.deleteFoldersWhere p).folders := List.mem_filter.mpr ⟨hf, by simp [hpf]⟩
      rw [hu'.inAccount_eq hkept hfid]
      have hany : (t.folders.any fun row => p row && row.id == m.folder) = false := by
        rw [List.any_eq_false]
        intro r hr hpr
        simp only [Bool.and_eq_true, beq_iff_eq] at hpr
        rw [h.folderIds.eq_of_key hr hf (hpr.2.trans hfid.symm), hpf] at hpr
        exact Bool.false_ne_true hpr.1
      simp [hany]
    · rw [decide_eq_false hacc, Bool.and_eq_false_iff]
      refine .inl (Bool.eq_false_iff.mpr fun hin => hacc ?_)
      obtain ⟨r, hr, hrm, hracc⟩ := Tables.inAccount_iff.mp hin
      rwa [h.folderIds.eq_of_key hf (List.mem_filter.mp hr).1 (hfid.trans hrm.symm)]
  | deleteMessages p hp hu =>
    subst hu
    rw [Tables.deleteMessagesWhere, List.filter_filter]
    refine List.filter_congr fun m hm => ?_
    obtain ⟨f, hf, g, hg, hfid, hgid, hjoin⟩ := h.joins m hm
    show (t.inAccount other m && _) = _
    rw [h.inAccount_eq hf hfid]
    by_cases hacc : f.account = other
    · -- the membership's message is of the other account, so it is not deleted
      have hany : (t.messages.any fun row => p row && row.id == m.message) = false := by
        rw [List.any_eq_false]
        intro r hr hpr
        simp only [Bool.and_eq_true, beq_iff_eq] at hpr
        rw [h.messageIds.eq_of_key hr hg (hpr.2.trans hgid.symm)] at hpr
        exact hother ((hjoin.symm.trans hacc).symm.trans (hp g hg hpr.1))
      simp [hany]
    · simp [hacc]
  | deleteMemberships p f hf haccount hp hu =>
    subst hu
    rw [List.filter_filter]
    refine List.filter_congr fun m hm => ?_
    show (t.inAccount other m && p m) = _
    cases hpm : p m with
    | true => rw [Bool.and_true]
    | false =>
      rw [Bool.and_false, h.inAccount_eq hf (hp m hm hpm).symm, haccount]
      exact (decide_eq_false hother.symm).symm

/-- A statement on an account's rows leaves the rows of every other account. -/
theorem Statement.part (hs : Statement account t u) (h : Linked t) {other : String}
    (hother : other ≠ account.asStr) : u.part other = t.part other := by
  simp only [Tables.part, hs.part_folders hother, hs.part_messages hother,
    hs.part_memberships h hother]

theorem Statements.part (hs : Statements account t u) (h : Linked t) {other : String}
    (hother : other ≠ account.asStr) : u.part other = t.part other := by
  induction hs with
  | refl => rfl
  | tail hs hs' ih => exact (hs'.part (Statements.linked hs h) hother).trans ih

end Mailbag.Store
