import Mailbag.Collections.Forest
import Mailbag.Domain
import Mailbag.Folders.MailboxNames
import Mathlib.Algebra.Order.BigOperators.Group.List
import Mathlib.Algebra.Order.Group.Nat

/-!
# The folders of a LIST reply and their tree

A server's folder list as the application's folders: names for the user, nesting and roles
from what the server states. Gmail lists its system labels under a container, which is left
out. The sidebar shows an account's folders as a tree, from the folders without a parent
down.

## What is proved

* `Reached.of_rank` — folders that rank above their parents are all shown.
* `reached_iff` — every folder of a LIST reply can be reached in the tree, for Generic IMAP
  and for Gmail, exactly when no mailbox has the empty text as its delimiter.
* `reached_ownParent` — with an empty delimiter a mailbox is its own parent.
-/

namespace Mailbag.Folders

open Collections

/-! ### From mailboxes to folders -/

/-- The mailbox attributes that give a role. -/
def roleAttributes : List (String × FolderRole) :=
  [("\\Inbox", .inbox), ("\\Flagged", .starred), ("\\Important", .important), ("\\Junk", .junk),
    ("\\Trash", .trash),
    ("\\Archive", .archive), ("\\Drafts", .drafts), ("\\Sent", .sent), ("\\All", .allMail)]

/-- The mailbox's parent by its hierarchy delimiter, when the server listed it. -/
def listedParent (mailbox : MailboxName) (listed : List String) : Option String := do
  let delimiter ← mailbox.delimiter
  let (parent, _) ← rsplitOnce delimiter.toList mailbox.name.toList
  if .ofList parent ∈ listed then some (.ofList parent) else none

/-- The inbox by its reserved name, otherwise the first role attribute in the order listed. -/
def imapRole (mailbox : MailboxName) : Option FolderRole :=
  if eqIgnoreAsciiCase mailbox.name "INBOX" then some .inbox
  else mailbox.attributes.findSome? fun mark =>
    (roleAttributes.find? fun (name, _) => eqIgnoreAsciiCase name mark).map (·.2)

/-- Whether the mailbox has the attribute, in any case. -/
def hasAttribute (mailbox : MailboxName) (name : String) : Bool :=
  mailbox.attributes.any fun mark => eqIgnoreAsciiCase mark name

/-- The part of a mailbox's name that is shown: under a listed parent, the part after it. -/
def shownPart (mailbox : MailboxName) (parent : Option String) : String :=
  match parent, mailbox.delimiter with
  | some parent, some delimiter =>
    .ofList (mailbox.name.toList.drop (parent.length + delimiter.length))
  | _, _ => mailbox.name

/-- The folder of a mailbox. -/
def imapFolder (list : MailboxList) (mailbox : MailboxName) : Folder :=
  let parent := listedParent mailbox (list.names.map (·.name))
  let shown := shownPart mailbox parent
  { identity := mailbox.name
    name := if list.utf8Names then shown else decode shown
    parent := parent
    role := imapRole mailbox
    selectable := !hasAttribute mailbox "\\Noselect" && !hasAttribute mailbox "\\NonExistent" }

/-- A Generic IMAP account's folders. -/
def imapFolders (list : MailboxList) : List Folder := list.names.map (imapFolder list)

/-- The folders without a parent that do not open and have a child with a role. -/
def containers (folders : List Folder) : List String :=
  ((folders.filter fun folder => folder.parent.isNone && !folder.selectable).filter fun container =>
    folders.any fun folder => folder.parent = some container.identity && folder.role.isSome).map
      (·.identity)

/-- A folder with the parent left out, when it is one of the containers. -/
def underAccount (containers : List String) (folder : Folder) : Folder :=
  if folder.parent.any (· ∈ containers) then { folder with parent := none } else folder

/-- A Gmail account's folders, without the container of its system labels. -/
def gmailFolders (list : MailboxList) : List Folder :=
  let folders := imapFolders list
  let containers := containers folders
  (folders.filter (·.identity ∉ containers)).map (underAccount containers)

/-! ### The sidebar's tree -/

/-- `FolderRole::ORDER`, the order of the system folders in the sidebar. -/
def FolderRole.order : List FolderRole :=
  [.inbox, .starred, .important, .junk, .trash, .archive, .drafts, .sent, .allMail]

/-- Where a folder stands by its role; after all of them without one. -/
def roleRank (folder : Folder) : ℕ :=
  match folder.role with
  | some role => FolderRole.order.idxOf role
  | none => FolderRole.order.length

variable (collationKey : String → String)

/-- Siblings: the system folders first, then by the locale's collation of their names. -/
def sortSiblings (siblings : List Folder) : List Folder :=
  siblings.mergeSort fun a b =>
    roleRank a < roleRank b ||
      (roleRank a = roleRank b && decide (collationKey a.name ≤ collationKey b.name))

/-- The trees under a parent, as far as `n` levels. -/
def fillFolders (folders : List Folder) (n : ℕ) (parent : Option String) :
    Option (List (Collections.Tree Folder)) :=
  fill Folder.identity Folder.parent folders (sortSiblings collationKey) n parent

/-- The tree an account shows of its folders, which the store gives by their identities. -/
def showFolders (folders : List Folder) (n : ℕ) : Option (List (Collections.Tree Folder)) :=
  fillFolders collationKey (folders.mergeSort fun a b => decide (a.identity ≤ b.identity)) n none

/-- Every folder can be reached in the tree. -/
structure Reached (folders : List Folder) : Prop where
  /-- Every parent names a folder. -/
  closed : Closed Folder.identity Folder.parent folders
  /-- Following parents ends. -/
  ends : ∀ folder ∈ folders, Acc (IsParent Folder.identity Folder.parent folders) folder
  /-- Filling the tree ends, and it shows every folder. -/
  shown : ∃ n trees, showFolders collationKey folders n = some trees ∧
    ∀ folder ∈ folders, Shown folder trees

variable {collationKey}

/-- **Folders that rank above their parents** are all shown. -/
theorem Reached.of_rank {folders : List Folder} (rank : String → ℕ)
    (hclosed : Closed Folder.identity Folder.parent folders)
    (hrank : ∀ folder ∈ folders, ∀ parent, folder.parent = some parent →
      rank parent < rank folder.identity) : Reached collationKey folders := by
  refine ⟨hclosed, acc_of_rank rank hrank, ?_⟩
  set sorted := folders.mergeSort fun a b => decide (a.identity ≤ b.identity) with hsorted
  have hperm : sorted.Perm folders := List.mergeSort_perm _ _
  have hrank' : ∀ folder ∈ sorted, ∀ parent, folder.parent = some parent →
      rank parent < rank folder.identity :=
    fun folder hfolder => hrank folder (hperm.mem_iff.mp hfolder)
  have hclosed' : Closed Folder.identity Folder.parent sorted := by
    intro folder hfolder parent hparent
    obtain ⟨y, hy, heq⟩ := hclosed folder (hperm.mem_iff.mp hfolder) parent hparent
    exact ⟨y, hperm.mem_iff.mpr hy, heq⟩
  have hsort : ∀ siblings, (sortSiblings collationKey siblings).Perm siblings :=
    fun siblings => List.mergeSort_perm _ _
  -- The levels are bounded by the ranks of the folders there are.
  obtain ⟨bound, hbound⟩ : ∃ bound, ∀ folder ∈ sorted, rank folder.identity < bound := by
    refine ⟨(sorted.map (rank ·.identity)).sum + 1, fun folder hfolder => Nat.lt_succ_of_le ?_⟩
    exact List.single_le_sum (fun _ _ => Nat.zero_le _) _ (List.mem_map_of_mem hfolder)
  obtain ⟨trees, htrees⟩ := Option.isSome_iff_exists.mp
    (fill_of_rank rank hrank' hsort hbound (bound + 1) none (Nat.lt_succ_self bound))
  refine ⟨bound + 1, trees, htrees, fun folder hfolder => ?_⟩
  have hmem := hperm.mem_iff.mpr hfolder
  exact shown_of_acc hsort hclosed' htrees (acc_of_rank rank hrank' folder hmem) hmem

/-! ### A LIST reply's parents -/

theorem eq_append_of_listedParent {mailbox : MailboxName} {listed : List String} {parent : String}
    (h : listedParent mailbox listed = some parent) : parent ∈ listed ∧
      ∃ delimiter rest, mailbox.delimiter = some delimiter ∧
        mailbox.name.toList = parent.toList ++ (delimiter.toList ++ rest) := by
  simp only [listedParent, Option.bind_eq_bind, Option.bind_eq_some_iff] at h
  obtain ⟨delimiter, hdelimiter, ⟨before, after⟩, hsplit, hif⟩ := h
  split at hif
  · next hmem =>
    cases hif
    refine ⟨hmem, delimiter, after, hdelimiter, ?_⟩
    rw [String.toList_ofList]
    exact eq_append_of_rsplitOnce hsplit
  · cases hif

theorem listedParent_empty {mailbox : MailboxName} {listed : List String}
    (hempty : mailbox.delimiter = some "") (hmem : mailbox.name ∈ listed) :
    listedParent mailbox listed = some mailbox.name := by
  simp [listedParent, hempty, rsplitOnce_nil, hmem]

/-- Without empty delimiters, a folder's name is longer than its parent's. -/
theorem length_lt_of_parent {list : MailboxList}
    (h : ∀ mailbox ∈ list.names, mailbox.delimiter ≠ some "") :
    ∀ folder ∈ imapFolders list, ∀ parent, folder.parent = some parent →
      parent.length < folder.identity.length := by
  intro folder hfolder parent hparent
  obtain ⟨mailbox, hmailbox, rfl⟩ := List.mem_map.mp hfolder
  obtain ⟨-, delimiter, rest, hdelimiter, hname⟩ := eq_append_of_listedParent hparent
  have hne : delimiter.toList ≠ [] := by
    intro hnil
    exact h mailbox hmailbox (hdelimiter.trans (congrArg some (String.toList_eq_nil_iff.mp hnil)))
  have hlength := congrArg List.length hname
  have hpos := List.length_pos_iff.mpr hne
  simp only [List.length_append, String.length_toList] at hlength hpos
  show parent.length < mailbox.name.length
  omega

theorem closed_imapFolders (list : MailboxList) :
    Closed Folder.identity Folder.parent (imapFolders list) := by
  intro folder hfolder parent hparent
  obtain ⟨mailbox, -, rfl⟩ := List.mem_map.mp hfolder
  obtain ⟨hlisted, -⟩ := eq_append_of_listedParent hparent
  obtain ⟨other, hother, hname⟩ := List.mem_map.mp hlisted
  exact ⟨_, List.mem_map_of_mem hother, hname⟩

/-! ### Gmail's container -/

@[simp] theorem underAccount_identity (containers : List String) (folder : Folder) :
    (underAccount containers folder).identity = folder.identity := by
  rw [underAccount]
  split <;> rfl

theorem parent_of_underAccount {containers : List String} {folder : Folder} {parent : String}
    (h : (underAccount containers folder).parent = some parent) :
    folder.parent = some parent ∧ parent ∉ containers := by
  rw [underAccount] at h
  split at h
  · cases h
  · next hany =>
    refine ⟨h, fun hmem => hany ?_⟩
    rw [h]
    exact decide_eq_true hmem

/-- A folder of Gmail's list, with a parent it keeps, comes from the folder with that parent. -/
theorem exists_of_mem_gmailFolders {list : MailboxList} {folder : Folder}
    (h : folder ∈ gmailFolders list) :
    ∃ listed ∈ imapFolders list, listed.identity = folder.identity ∧
      ∀ parent, folder.parent = some parent → listed.parent = some parent ∧
        parent ∉ containers (imapFolders list) := by
  obtain ⟨listed, hlisted, rfl⟩ := List.mem_map.mp h
  exact ⟨listed, List.mem_of_mem_filter hlisted, by simp, fun parent hparent =>
    parent_of_underAccount hparent⟩

theorem closed_gmailFolders (list : MailboxList) :
    Closed Folder.identity Folder.parent (gmailFolders list) := by
  intro folder hfolder parent hparent
  obtain ⟨listed, hlisted, -, hkept⟩ := exists_of_mem_gmailFolders hfolder
  obtain ⟨hlistedParent, hcontainer⟩ := hkept parent hparent
  obtain ⟨other, hother, rfl⟩ := closed_imapFolders list listed hlisted parent hlistedParent
  refine ⟨_, List.mem_map_of_mem (List.mem_filter.mpr ⟨hother, ?_⟩), underAccount_identity _ other⟩
  exact decide_eq_true hcontainer

/-! ### Reaching every folder -/

variable (collationKey)

/-- **Every folder of a LIST reply can be reached** in the tree, for Generic IMAP and for Gmail,
exactly when no mailbox has the empty text as its delimiter. -/
theorem reached_iff (list : MailboxList) :
    Reached collationKey (imapFolders list) ∧ Reached collationKey (gmailFolders list) ↔
      ∀ mailbox ∈ list.names, mailbox.delimiter ≠ some "" := by
  constructor
  · rintro ⟨himap, -⟩ mailbox hmailbox hempty
    have hmem : imapFolder list mailbox ∈ imapFolders list := List.mem_map_of_mem hmailbox
    have hparent := listedParent_empty hempty (List.mem_map_of_mem hmailbox)
    -- The folder is its own parent, so following parents from it never ends.
    exact not_isParent_self (himap.ends _ hmem) ⟨hmem, hparent⟩
  · intro h
    have hrank := length_lt_of_parent h
    refine ⟨.of_rank String.length (closed_imapFolders list) hrank, .of_rank String.length
      (closed_gmailFolders list) ?_⟩
    intro folder hfolder parent hparent
    obtain ⟨listed, hlisted, hidentity, hkept⟩ := exists_of_mem_gmailFolders hfolder
    exact hidentity ▸ hrank listed hlisted parent (hkept parent hparent).1

/-- One mailbox, whose delimiter is the empty text, is its own parent, and no tree shows it. -/
theorem reached_ownParent : ¬ Reached id (imapFolders ⟨[⟨"A", [], some ""⟩], true⟩) := by
  rintro ⟨-, hends, -⟩
  have hmem : Folder.mk "A" "" (some "A") none true ∈ imapFolders ⟨[⟨"A", [], some ""⟩], true⟩ := by
    decide +kernel
  exact not_isParent_self (hends _ hmem) ⟨hmem, rfl⟩

end Mailbag.Folders
