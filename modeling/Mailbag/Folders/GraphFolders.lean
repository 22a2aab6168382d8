import Mailbag.Collections.Keyed
import Mailbag.Folders.Reached
import Mailbag.Graph.Service
import Mailbag.Interaction.Handled

/-!
# A Microsoft 365 account's folders

The service lists the mailbox's folders page by page; a later entry for a folder takes the place
of an earlier one, or removes it. Then each well-known name is looked up, and the folder it
resolves to gets its role. A parent the listing leaves out puts a folder under the account.

## What is proved

* `lists_folders` — every list that is returned is that of the last entries: each folder once, as
  its last entry has it, with the role of the last well-known name that resolved to it.
* `graph_reached_iff` — the sidebar shows all of them exactly when no folder is under itself.
-/

namespace Mailbag.Folders

open Collections Graph Interaction

/-! ### From the listing to folders -/

/-- The role of a well-known folder. -/
def graphRole : WellKnownFolder → FolderRole
  | .inbox => .inbox
  | .drafts => .drafts
  | .sentItems => .sent
  | .deletedItems => .trash
  | .junkEmail => .junk
  | .archive => .archive

/-- A Microsoft 365 account's folders. -/
def graphFolders (listed : List GraphFolder) : List Folder :=
  listed.map fun folder =>
    { identity := folder.id
      name := folder.name
      parent := folder.parentId.filter fun parent => parent ∈ listed.map (·.id)
      role := folder.wellKnown.map graphRole
      selectable := true }

/-- What an account's list is taken from. -/
def listMicrosoft365Folders (rules : GraphRules) (serviceUrl accessToken : String)
    (pages : ℕ) : GraphProgram (List Folder) := do
  let listed ← listFolders rules serviceUrl accessToken pages
  return graphFolders listed

/-! ### The tree -/

theorem closed_graphFolders (listed : List GraphFolder) :
    Closed Folder.identity Folder.parent (graphFolders listed) := by
  intro folder hfolder parent hparent
  obtain ⟨graph, -, rfl⟩ := List.mem_map.mp hfolder
  obtain ⟨-, hlisted⟩ := Option.filter_eq_some_iff.mp hparent
  obtain ⟨other, hother, rfl⟩ := List.mem_map.mp (of_decide_eq_true hlisted)
  exact ⟨_, List.mem_map_of_mem hother, rfl⟩

variable {collationKey : String → String}

/-- The tree shows every folder, when every parent is listed, exactly if no folder is under
itself. -/
theorem shown_iff {folders : List Folder}
    (hclosed : Closed Folder.identity Folder.parent folders) :
    (∃ n trees, showFolders collationKey folders n = some trees ∧ ∀ folder ∈ folders,
      Shown folder trees) ↔
      ∀ folder ∈ folders, ¬ IsAncestor Folder.identity Folder.parent folders folder folder := by
  constructor
  · rintro ⟨n, trees, htrees, hshown⟩ folder hfolder hself
    have hperm : (folders.mergeSort fun a b => decide (a.identity ≤ b.identity)).Perm folders :=
      List.mergeSort_perm _ _
    have hsort : ∀ siblings, (sortSiblings collationKey siblings).Perm siblings :=
      fun siblings => List.mergeSort_perm _ _
    exact not_ancestor_of_shown hsort htrees (hperm.mem_iff.mpr hfolder) (hshown folder hfolder)
      (hself.mono fun _ h => hperm.mem_iff.mpr h)
  · intro h
    obtain ⟨rank, hrank⟩ := exists_rank hclosed h
    exact (Reached.of_rank rank hclosed hrank).shown

/-- **The sidebar shows every folder** of the list exactly when following the parents the list names
leads from no folder back to it. -/
theorem graph_reached_iff (listed : List GraphFolder) :
    (∃ n trees, showFolders collationKey (graphFolders listed) n = some trees ∧
        ∀ folder ∈ graphFolders listed, Shown folder trees) ↔
      ∀ folder ∈ graphFolders listed, ¬ IsAncestor Folder.identity Folder.parent
        (graphFolders listed) folder folder :=
  shown_iff (closed_graphFolders listed)

/-! ### The last entries -/

theorem enterFolders_cons (folders : List GraphFolder) (entry : String × Option GraphFolder)
    (entries : List (String × Option GraphFolder)) : enterFolders folders (entry :: entries) =
      enterFolders (folders.filter (fun folder => folder.id ≠ entry.1) ++ entry.2.toList) entries :=
  rfl

theorem enterFolders_append (folders : List GraphFolder)
    (entries entries' : List (String × Option GraphFolder)) :
    enterFolders folders (entries ++ entries') = enterFolders (enterFolders folders entries)
      entries' :=
  List.foldl_append

/-- An entry's folder has the entry's id, and no well-known name yet. -/
def Named (entry : String × Option GraphFolder) : Prop :=
  ∀ folder, entry.2 = some folder → folder.id = entry.1 ∧ folder.wellKnown = none

/-- One entry takes the place of what was listed of its folder. -/
theorem lookup_enterOne {folders : List GraphFolder} {entry : String × Option GraphFolder}
    (hunique : Collections.Unique GraphFolder.id folders) (hnamed : Named entry) :
    Collections.Unique GraphFolder.id (folders.filter (fun folder => folder.id ≠ entry.1) ++
      entry.2.toList) ∧
      ∀ id, lookup GraphFolder.id (folders.filter (fun folder => folder.id ≠ entry.1) ++
        entry.2.toList) id =
        if entry.1 = id then entry.2 else lookup GraphFolder.id folders id := by
  have hkept := hunique.filter fun folder => decide (folder.id ≠ entry.1)
  have hlookup : ∀ id, lookup GraphFolder.id
    (folders.filter fun folder => decide (folder.id ≠ entry.1)) id =
      if entry.1 = id then none else lookup GraphFolder.id folders id := by
    intro id
    rw [hunique.lookup_filter]
    cases hfound : lookup GraphFolder.id folders id with
    | none => simp
    | some folder =>
      have hid := key_of_lookup hfound
      by_cases h : entry.1 = id
      · simp [Option.filter, hid, h]
      · simp [Option.filter, hid, h, Ne.symm h]
  cases hentry : entry.2 with
  | none =>
    rw [Option.toList_none, List.append_nil]
    exact ⟨hkept, hlookup⟩
  | some folder =>
    have hid := (hnamed folder hentry).1
    have hnew : ∀ other ∈ folders.filter fun folder => decide (folder.id ≠ entry.1), other.id ≠
        folder.id := by
      intro other hother
      rw [hid]
      exact of_decide_eq_true (List.mem_filter.mp hother).2
    refine ⟨hkept.append_one hnew, fun id => ?_⟩
    rw [Option.toList_some, lookup_append_one hnew, hlookup, hid]
    by_cases h : entry.1 = id
    · rw [if_pos h.symm, if_pos h]
    · rw [if_neg (Ne.symm h), if_neg h, if_neg h]

/-- **The last entry decides** what is listed of a folder. -/
theorem lookup_enterFolders {folders : List GraphFolder}
    {entries : List (String × Option GraphFolder)}
    (hunique : Collections.Unique GraphFolder.id folders)
    (hnamed : ∀ entry ∈ entries, Named entry) :
    Collections.Unique GraphFolder.id (enterFolders folders entries) ∧
    ∀ id, lookup GraphFolder.id (enterFolders folders entries) id =
      (latest id entries).getD (lookup GraphFolder.id folders id) := by
  induction entries generalizing folders with
  | nil => exact ⟨hunique, fun id => rfl⟩
  | cons entry entries ih =>
    rw [List.forall_mem_cons] at hnamed
    obtain ⟨hunique', hlookup⟩ := lookup_enterOne hunique hnamed.1
    obtain ⟨hunique'', hrest⟩ := ih hunique' hnamed.2
    refine ⟨hunique'', fun id => ?_⟩
    rw [enterFolders_cons, hrest, hlookup, latest]
    cases latest id entries with
    | some found => rfl
    | none =>
      by_cases hid : entry.1 = id
      · simp [hid]
      · simp [hid]

/-! ### Well-known names -/

/-- The folder with the well-known name, if it is the one found. -/
def marked (wellKnown : WellKnownFolder) (found : Option String) (folder : GraphFolder) :
    GraphFolder :=
  if found = some folder.id then { folder with wellKnown := some wellKnown } else folder

@[simp] theorem marked_id (wellKnown : WellKnownFolder) (found : Option String)
    (folder : GraphFolder) : (marked wellKnown found folder).id = folder.id := by
  rw [marked]
  split <;> rfl

/-- Where ids are unique, marking the first folder with the id marks the folder with the id. -/
theorem markWellKnown_eq_map {folders : List GraphFolder}
    (hunique : Collections.Unique GraphFolder.id folders) (wellKnown : WellKnownFolder)
    (found : Option String) :
    markWellKnown wellKnown found folders = folders.map (marked wellKnown found) := by
  induction folders with
  | nil => rfl
  | cons folder folders ih =>
    rw [Collections.Unique, List.map_cons, List.nodup_cons] at hunique
    rw [markWellKnown, List.map_cons, marked]
    by_cases hid : found = some folder.id
    · rw [if_pos hid.symm, if_pos hid]
      -- no other folder has this id
      have hothers : ∀ other ∈ folders, marked wellKnown found other = other := by
        intro other hother
        refine if_neg fun hid' => hunique.1 ?_
        exact Option.some.inj (hid'.symm.trans hid) ▸ List.mem_map_of_mem hother
      rw [List.map_congr_left hothers, List.map_id']
    · rw [if_neg (Ne.symm hid), if_neg hid, ih hunique.2]

/-- The folder with the last of the names that were found to be its own. -/
def wellKnownAs (found : List (Option String × WellKnownFolder)) (folder : GraphFolder) :
    GraphFolder :=
  { folder with wellKnown := (latest (some folder.id) found).or folder.wellKnown }

theorem wellKnownAs_cons (wellKnown : WellKnownFolder) (id : Option String)
    (found : List (Option String × WellKnownFolder)) (folder : GraphFolder) :
    wellKnownAs ((id, wellKnown) :: found) folder = wellKnownAs found
      (marked wellKnown id folder) := by
  rw [wellKnownAs, wellKnownAs, latest, marked]
  by_cases hid : id = some folder.id
  · simp [hid]
  · simp [hid]

/-! ### Runs -/

section Runs

variable {σ α : Type} {E : Surroundings GraphExchange GraphExchange.Reply σ} {rules : GraphRules}
  {serviceUrl accessToken : String} {s u : σ}
  {tr : List (Event GraphExchange GraphExchange.Reply σ)}

/-- An exchange in which the service answered a reading at the address so. -/
inductive Got (accessToken address : String) (answer : HttpAnswer) :
    Event GraphExchange GraphExchange.Reply σ → Prop
  /-- The request has the token, and nothing else. -/
  | mk {s t : σ} :
      Got accessToken address answer ⟨s, .send ⟨.get, address, accessToken, none, none⟩,
        .ok answer, t⟩

/-- The exchanges that read a listing from an address on: each page, where the page before says the
next is. -/
inductive PagesRead (accessToken : String) :
    String → List (Event GraphExchange GraphExchange.Reply σ) → List FolderPage → Prop
  /-- The last page. -/
  | last {address : String} {e : Event GraphExchange GraphExchange.Reply σ} {body : Option Value}
      {page : FolderPage} :
      Got accessToken address ⟨200, body⟩ e → readFolderPage body = .ok page →
      page.nextLink = none →
        PagesRead accessToken address [e] [page]
  /-- A page before others. -/
  | more {address next : String} {e : Event GraphExchange GraphExchange.Reply σ}
      {body : Option Value} {page : FolderPage}
      {es : List (Event GraphExchange GraphExchange.Reply σ)} {pages : List FolderPage} :
      Got accessToken address ⟨200, body⟩ e → readFolderPage body = .ok page →
      page.nextLink = some next →
        PagesRead accessToken next es pages →
        PagesRead accessToken address (e :: es) (page :: pages)

/-- What an exchange says of a well-known name: the id of its folder, or that there is none. -/
inductive Resolves (serviceUrl accessToken : String) :
    Event GraphExchange GraphExchange.Reply σ → Option String × WellKnownFolder → Prop
  /-- There is none. -/
  | missing {wellKnown : WellKnownFolder} {e : Event GraphExchange GraphExchange.Reply σ}
      {body : Option Value} :
      Got accessToken (wellKnownAddress serviceUrl wellKnown) ⟨404, body⟩ e →
        Resolves serviceUrl accessToken e (none, wellKnown)
  /-- There is one. -/
  | found {wellKnown : WellKnownFolder} {e : Event GraphExchange GraphExchange.Reply σ}
      {body : Option Value} {id : String} :
      Got accessToken (wellKnownAddress serviceUrl wellKnown) ⟨200, body⟩ e →
      readFolderId body = .ok id →
        Resolves serviceUrl accessToken e (some id, wellKnown)

theorem returned_of_ofExcept {ε β : Type} {Op : Type} {Ans : Op → Type} {E : Surroundings Op Ans σ}
    {x : Except ε β} {f : β → Program Op Ans ε α} {tr : List (Event Op Ans σ)} {a : α}
    (h : Run E ((Program.ofExcept x).bind f) s tr (.returned a) u) :
    ∃ b, x = .ok b ∧ Run E (f b) s tr (.returned a) u := by
  cases x with
  | ok b => exact ⟨b, rfl, h⟩
  | error e => cases h

theorem returned_of_readReply {β : Type} {reply : Except GraphFailure β} {f : β → GraphProgram α}
    {a : α} (h : Run E ((readReply reply).bind f) s tr (.returned a) u) :
    ∃ b, reply = .ok b ∧ Run E (f b) s tr (.returned a) u := by
  cases reply with
  | ok b => exact ⟨b, rfl, h⟩
  | error failure => cases h

/-- A reading that did not end the program was answered, and the program went on with the answer. -/
theorem returned_of_get {address : String} {f : HttpAnswer → GraphProgram α} {a : α}
    (h : Run E ((Program.ofExcept (buildRequest rules accessToken address)).bind fun request =>
      (send request).bind f) s tr (.returned a) u) :
    ∃ e answer rest t, tr = e :: rest ∧ Got accessToken address answer e ∧
      Run E (f answer) t rest (.returned a) u := by
  obtain ⟨request, hrequest, h⟩ := returned_of_ofExcept h
  have hbuilt : request = ⟨.get, address, accessToken, none, none⟩ := by
    rw [buildRequest] at hrequest
    split at hrequest
    · cases hrequest
    · exact (Except.ok.inj hrequest).symm
  subst hbuilt
  rw [send, Program.bind_assoc, Program.request, Program.ask_bind] at h
  cases h with
  | @ask _ _ _ s' t _ reply rest _ hm ha hrest =>
    obtain ⟨answer, hanswer, hrest⟩ := returned_of_ofExcept hrest
    cases reply with
    | ok reply =>
      cases hanswer
      exact ⟨_, answer, rest, t, rfl, .mk, hrest⟩
    | error error => cases hanswer

theorem status_of_checkStatus {answer : HttpAnswer} {status : ℕ}
    (h : checkStatus answer = .ok status) : answer.status = 200 := by
  rw [checkStatus] at h
  split at h
  · next hstatus => exact hstatus
  · cases h

theorem named_of_readFolderEntry {entry : Value} {read : String × Option GraphFolder}
    (h : readFolderEntry entry = some read) : Named read := by
  obtain ⟨id, -, h⟩ := Option.bind_eq_some_iff.mp h
  intro folder hfolder
  split at h
  · cases h
    cases hfolder
  · obtain ⟨name, -, h⟩ := Option.bind_eq_some_iff.mp h
    cases h
    cases hfolder
    exact ⟨rfl, rfl⟩

theorem named_of_readFolderPage {body : Option Value} {page : FolderPage}
    (h : readFolderPage body = .ok page) : ∀ entry ∈ page.entries, Named entry := by
  cases body with
  | none => cases h
  | some answer =>
    change (readEntriesOf readFolderEntry answer).bind _ = _ at h
    cases hentries : readEntriesOf readFolderEntry answer with
    | error failure =>
      rw [hentries] at h
      cases h
    | ok entries =>
      rw [hentries] at h
      dsimp only [Except.bind] at h
      split at h
      · cases h
      · cases h
        intro entry hentry
        obtain ⟨values, -, hread⟩ := readEntriesOf_eq_ok.mp hentries
        obtain ⟨value, -, hvalue⟩ := mem_of_mapM_mem (mapM_eq_some_iff.mpr hread) hentry
        exact named_of_readFolderEntry hvalue

/-- The listing's exchanges, and what the entries of its pages leave. -/
theorem returned_of_listing {n : ℕ} {address : String} {folders listed : List GraphFolder}
    (h : Run E (Program.iterate (readListingPage rules accessToken) n (address, folders)) s tr
      (.returned listed) u) :
    ∃ pages, PagesRead accessToken address tr pages ∧
      listed = enterFolders folders (pages.flatMap (·.entries)) ∧
      ∀ entry ∈ pages.flatMap (·.entries), Named entry := by
  induction n generalizing address folders s tr with
  | zero => cases h
  | succ n ih =>
    rw [Program.iterate, readListingPage] at h
    simp only [Program.bind_eq, Program.bind_assoc] at h
    obtain ⟨e, answer, rest, t, rfl, hgot, h⟩ := returned_of_get h
    obtain ⟨status, hstatus, h⟩ := returned_of_ofExcept h
    obtain ⟨page, hread, h⟩ := returned_of_readReply h
    have hgot' : Got accessToken address ⟨200, answer.body⟩ e := by
      rw [← status_of_checkStatus hstatus]
      exact hgot
    have hnamed := named_of_readFolderPage hread
    cases hnext : page.nextLink with
    | none =>
      simp only [hnext] at h
      cases h
      exact ⟨[page], .last hgot' hread hnext, by simp, by simpa using hnamed⟩
    | some next =>
      simp only [hnext] at h
      obtain ⟨pages, hpages, rfl, hrest⟩ := ih h
      refine ⟨page :: pages, .more hgot' hread hnext hpages, ?_, ?_⟩
      · rw [List.flatMap_cons, enterFolders_append]
      · rw [List.flatMap_cons]
        exact List.forall_mem_append.mpr ⟨hnamed, hrest⟩

theorem returned_of_lookup {wellKnown : WellKnownFolder} {found : Option String}
    (h : Run E (findWellKnownFolder rules serviceUrl accessToken wellKnown) s tr
      (.returned found) u) :
    ∃ e, tr = [e] ∧ Resolves serviceUrl accessToken e (found, wellKnown) := by
  rw [findWellKnownFolder] at h
  simp only [Program.bind_eq] at h
  obtain ⟨e, answer, rest, t, rfl, hgot, h⟩ := returned_of_get h
  split at h
  · next hmissing =>
    cases h
    refine ⟨e, rfl, .missing (?_ : Got accessToken _ ⟨404, answer.body⟩ e)⟩
    rw [← hmissing]
    exact hgot
  · obtain ⟨status, hstatus, h⟩ := returned_of_ofExcept h
    obtain ⟨id, hid, h⟩ := returned_of_readReply h
    cases h
    refine ⟨e, rfl, .found ?_ hid⟩
    rw [← status_of_checkStatus hstatus]
    exact hgot

/-- The lookups' exchanges, one for each name, and what they leave of the folders. -/
theorem returned_of_lookups {names : List WellKnownFolder} {folders listed : List GraphFolder}
    (hunique : Collections.Unique GraphFolder.id folders)
    (h : Run E (findWellKnownFolders rules serviceUrl accessToken names folders) s tr
      (.returned listed) u) :
    ∃ found, List.Forall₂ (Resolves serviceUrl accessToken) tr found ∧ found.map Prod.snd = names ∧
      listed = folders.map (wellKnownAs found) := by
  induction names generalizing folders s tr with
  | nil =>
    cases h
    exact ⟨[], .nil, rfl, (List.map_id' _).symm⟩
  | cons wellKnown names ih =>
    rcases Run.of_bind h with ⟨tr₁, tr₂, id, t, rfl, h₁, h₂⟩ | ⟨r', hstopped, -⟩
    · obtain ⟨e, rfl, hresolves⟩ := returned_of_lookup h₁
      rw [markWellKnown_eq_map hunique] at h₂
      obtain ⟨found, hfound, rfl, rfl⟩ := ih (hunique.map fun folder => marked_id _ _ folder) h₂
      refine ⟨(id, wellKnown) :: found, .cons hresolves hfound, rfl, ?_⟩
      rw [List.map_map]
      exact List.map_congr_left fun folder _ => (wellKnownAs_cons _ _ _ folder).symm
    · exact absurd rfl (hstopped.ne_returned listed)

/-- What the account's list has of a folder whose last entry is `listed`. -/
def keptFolder (entries : List (String × Option GraphFolder))
    (found : List (Option String × WellKnownFolder)) (listed : GraphFolder) : Folder where
  identity := listed.id
  name := listed.name
  parent := listed.parentId.filter fun parent => (latest parent entries).join.isSome
  role := (latest (some listed.id) found).map graphRole
  selectable := true

theorem graphFolders_of_entries {entries : List (String × Option GraphFolder)}
    (hnamed : ∀ entry ∈ entries, Named entry)
    (found : List (Option String × WellKnownFolder)) :
    ((graphFolders ((enterFolders [] entries).map (wellKnownAs found))).map (·.identity)).Nodup ∧
      ∀ folder, folder ∈ graphFolders ((enterFolders [] entries).map (wellKnownAs found)) ↔
        ∃ id listed, latest id entries = some (some listed) ∧
          folder = keptFolder entries found listed := by
  obtain ⟨hunique, hlookup⟩ := lookup_enterFolders unique_nil hnamed
  have hlatest : ∀ id, lookup GraphFolder.id (enterFolders [] entries) id =
      (latest id entries).join := by
    intro id
    rw [hlookup]
    cases latest id entries <;> rfl
  have hids : ((enterFolders [] entries).map (wellKnownAs found)).map (·.id) =
      (enterFolders [] entries).map (·.id) := by
    rw [List.map_map]
    rfl
  have hmem : ∀ parent, parent ∈ (enterFolders [] entries).map (·.id) ↔
      (latest parent entries).join.isSome := by
    intro parent
    rw [← hlatest, lookup_isSome_iff, List.mem_map]
  have hkept : ∀ listed, latest listed.id entries = some (some listed) →
      (⟨listed.id, listed.name, listed.parentId.filter fun parent => parent ∈
        (enterFolders [] entries).map (·.id),
        ((latest (some listed.id) found).or listed.wellKnown).map graphRole, true⟩ : Folder) =
          keptFolder entries found listed := by
    intro listed hlisted
    have hnone := (hnamed _ (mem_of_latest hlisted) listed rfl).2
    have hparents : (fun parent => decide (parent ∈ (enterFolders [] entries).map (·.id))) =
        fun parent => (latest parent entries).join.isSome := by
      funext parent
      exact Bool.eq_iff_iff.mpr (decide_eq_true_iff.trans (hmem parent))
    rw [hnone, Option.or_none, hparents]
    rfl
  constructor
  · rw [graphFolders, List.map_map]
    exact hids ▸ hunique
  · intro folder
    rw [graphFolders, hids, List.map_map, List.mem_map]
    constructor
    · rintro ⟨listed, hlisted, rfl⟩
      have hfound := Option.join_eq_some_iff.mp
        ((hlatest _).symm.trans (hunique.lookup_of_mem hlisted))
      exact ⟨_, listed, hfound, hkept listed hfound⟩
    · rintro ⟨id, listed, hlisted, rfl⟩
      obtain rfl : listed.id = id := (hnamed _ (mem_of_latest hlisted) listed rfl).1
      have hfound : lookup GraphFolder.id (enterFolders [] entries) listed.id = some listed := by
        rw [hlatest, hlisted]; rfl
      exact ⟨listed, mem_of_lookup hfound, hkept listed hlisted⟩

/-- **A list that is returned is that of the last entries**: its exchanges were the pages of one
listing, each where the page before said the next is, and a lookup of each well-known name; it has
each folder once, as its last entry has it, under the parent that is listed, with the role of the
last name that resolved to it. -/
theorem lists_folders {n : ℕ} {folders : List Folder}
    (h : Run E (listMicrosoft365Folders rules serviceUrl accessToken n) s tr
      (.returned folders) u) :
    ∃ listing lookups pages found, tr = listing ++ lookups ∧
      PagesRead accessToken (listingAddress serviceUrl) listing pages ∧
      List.Forall₂ (Resolves serviceUrl accessToken) lookups found ∧
      found.map Prod.snd = WellKnownFolder.all ∧
      (folders.map (·.identity)).Nodup ∧
      ∀ folder, folder ∈ folders ↔
        ∃ id listed, latest id (pages.flatMap (·.entries)) = some (some listed) ∧
        folder = keptFolder (pages.flatMap (·.entries)) found listed := by
  rw [listMicrosoft365Folders, listFolders] at h
  simp only [Program.bind_eq, Program.bind_assoc] at h
  rcases Run.of_bind h with ⟨listing, rest, listed, t, rfl, h₁, h₂⟩ | ⟨r', hstopped, -⟩
  · obtain ⟨pages, hpages, rfl, hnamed⟩ := returned_of_listing h₁
    rcases Run.of_bind h₂ with ⟨lookups, rest, marked, v, rfl, h₃, h₄⟩ | ⟨r', hstopped, -⟩
    · obtain ⟨found, hfound, hnames, rfl⟩ :=
        returned_of_lookups (lookup_enterFolders unique_nil hnamed).1 h₃
      cases h₄
      rw [List.append_nil]
      exact ⟨listing, lookups, pages, found, rfl, hpages, hfound, hnames,
        graphFolders_of_entries hnamed found⟩
    · exact absurd rfl (hstopped.ne_returned folders)
  · exact absurd rfl (hstopped.ne_returned folders)

end Runs

/-! ### A mailbox of two pages -/

/-- An entry of a folder with a name and a parent. -/
def folderEntry (id name parent : String) : Value :=
  .object [("id", .string id), ("displayName", .string name), ("parentFolderId", .string parent)]

/-- Two pages, on which a folder moves under another and one goes; of the names only the inbox's
resolves. -/
def twoPages : ℕ → HttpAnswer
  | 0 =>
    ⟨200, some (.object
      [("value", .array [folderEntry "a" "Inbox" "root", folderEntry "b" "Lists" "root",
      folderEntry "c" "Old" "a"]), ("@odata.nextLink", .string "more")])⟩
  | 1 =>
    ⟨200, some (.object [("value", .array [.object [("id", .string "c"), ("@removed", .object [])],
      folderEntry "b" "Lists" "a"]), ("@odata.deltaLink", .string "later")])⟩
  | 2 => ⟨200, some (.object [("id", .string "a")])⟩
  | _ => ⟨404, none⟩

/-- The answers one after another. -/
def answering (answers : ℕ → HttpAnswer) (n : ℕ) : (o : GraphExchange) → o.Reply × ℕ
  | .send _ => (.ok (answers n), n + 1)
  | .renew => (none, n)

/-- The mailbox's list. -/
def listingTwoPages :
    List (Event GraphExchange GraphExchange.Reply ℕ) × Outcome GraphError (List Folder) × ℕ :=
  exec (answering twoPages) (listMicrosoft365Folders plainRules "" "token" 2) 0

theorem lists_folders_twoPages :
    listingTwoPages.2.1 = .returned [⟨"a", "Inbox", none, some .inbox, true⟩,
      ⟨"b", "Lists", some "a", none, true⟩] ∧
      ∃ listing lookups pages found, listingTwoPages.1 = listing ++ lookups ∧
        PagesRead "token" (listingAddress "") listing pages ∧
        List.Forall₂ (Resolves "" "token") lookups found := by
  refine ⟨rfl, ?_⟩
  have hrun : Run (anything GraphExchange GraphExchange.Reply ℕ)
    (listMicrosoft365Folders plainRules "" "token" 2) 0 listingTwoPages.1
      (.returned [⟨"a", "Inbox", none, some .inbox, true⟩, ⟨"b", "Lists", some "a", none, true⟩])
        listingTwoPages.2.2 :=
    run_exec (fun _ _ => trivial) _ _
  obtain ⟨listing, lookups, pages, found, htr, hpages, hfound, -⟩ := lists_folders hrun
  exact ⟨listing, lookups, pages, found, htr, hpages, hfound⟩

end Mailbag.Folders
