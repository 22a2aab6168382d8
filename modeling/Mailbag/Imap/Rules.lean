import Mailbag.Imap.Reader

/-!
# What the reader leaves to a cycle

The rules of the reader's functions, for every server. They are stated over the history of
the cycle: which numbers its latest opening returned (`numbersAt`), which commands it gave
besides listings of every message (`Aside`), and which messages a command that completed
with OK named without being answered (`Unanswered`).
-/

namespace Mailbag.Imap

open Cycle Interaction Program Relation Store

variable {S : Server ImapCommand.Reply} {J : History S → S.World × Tables → Prop}

/-- The numbers an opening returned. -/
def opening? : Happened S → Option MailboxNumbers
  | ⟨_, .server (.openMailbox _), .ok numbers, _⟩ => some numbers
  | ⟨_, .server (.select _), .ok numbers, _⟩ => some numbers
  | _ => none

/-- The numbers the latest opening returned. -/
def numbersAt (h : History S) : Option MailboxNumbers := h.reverse.findSome? opening?

@[simp] theorem numbersAt_append_one (h : History S) (e : Happened S) :
    numbersAt (h ++ [e]) = (opening? e).or (numbersAt h) := by
  rw [numbersAt, List.reverse_append, List.reverse_singleton, List.singleton_append,
    List.findSome?_cons]
  cases opening? e <;> rfl

/-- A command other than a listing of every message. -/
def Aside (e : Happened S) : Prop := ∃ c, e.op = .server c ∧ ∀ items, c ≠ .uidFetch .all items

/-- The messages a command named are answered: a row by header lines, a structure by one, a
text by any response that names its message. -/
def Answers (responses : List Fetch) (uid : UInt32) : FetchItems → Prop
  | .listing .. => Names responses uid
  | .rows .. => GivesHeaders responses uid
  | .structure' => ∃ fetch ∈ responses, fetch.bodystructure.isSome
  | .sections .. => Names responses uid

/-- What is asked for are flags alone. -/
def FetchItems.IsListing : FetchItems → Prop
  | .listing .. => True
  | _ => False

/-- A command for the message's row, structure or text named it and completed with OK without
answering for it. -/
def Unanswered (e : Happened S) (uid : UInt32) : Prop :=
  ∃ before uids items answer after, e = ⟨before, .server (.uidFetch (.uids uids) items),
    answer, after⟩ ∧
    ¬items.IsListing ∧ uid ∈ uids ∧ answer.ended = none ∧ ¬Answers answer.responses uid items

/-- The flags are the last the responses to a row command carry of a message it named. -/
def Gives (e : Happened S) (uid : UInt32) (flags : MessageFlags) : Prop :=
  ∃ before uids items structures answer after,
    e = ⟨before, .server (.uidFetch (.uids uids) (.rows items structures)), answer, after⟩ ∧
    uid ∈ uids ∧
      Names answer.responses uid ∧ flags = (lastFlags answer.responses uid).getD ⟨false, false⟩

/-- The reader went on to other commands: it keeps the numbers of the latest opening, the
numbering is the same, and the store is as it was but for the user's wishes. -/
structure Continues (J : History S → S.World × Tables → Prop) (reader reader' : MailboxReader)
    (h h' : History S) (s u : S.World × Tables) : Prop extends Passes J Aside h h' s u where
  /-- The store. -/
  tables : Kept s.2 u.2
  /-- The numbers. -/
  tracks : numbersAt h = some reader.numbers → numbersAt h' = some reader'.numbers
  /-- The numbering. -/
  numbering : reader'.uidValidity = reader.uidValidity

theorem Continues.refl {reader : MailboxReader} {h : History S} {s : S.World × Tables}
    (hs : J h s) : Continues J reader reader h h s s :=
  ⟨.refl hs, .refl _, id, rfl⟩

theorem Continues.trans {reader reader' reader'' : MailboxReader} {h h' h'' : History S}
    {s u v : S.World × Tables} (h₁ : Continues J reader reader' h h' s u)
    (h₂ : Continues J reader' reader'' h' h'' u v) : Continues J reader reader'' h h'' s v :=
  ⟨h₁.toPasses.trans h₂.toPasses, h₁.tables.trans h₂.tables, h₂.tracks ∘ h₁.tracks,
    h₂.numbering.trans h₁.numbering⟩

/-- The reader, reconnected where it had to, gave a command. -/
structure Asked (J : History S → S.World × Tables → Prop) (reader reader' : MailboxReader)
    (c : ImapCommand) (answer : c.Reply) (h h' : History S) (s u : S.World × Tables) : Prop where
  /-- The moment of the command. -/
  moment : ∃ h₁ s₁ s₂, Continues J reader reader' h h₁ s s₁ ∧ Kept s₁.2 s₂.2 ∧
    ReflTransGen S.step s₁.1 s₂.1 ∧
    h' = h₁ ++ [⟨s₂, .server c, answer, u⟩] ∧ S.answer s₂.1 c answer u.1 ∧ u.2 = s₂.2 ∧
    J h₁ s₂ ∧ J h' u ∧
      (reader.needsReconnect = false → h₁ = h)

theorem Asked.occurred {P : Happened S → Prop} {reader reader' : MailboxReader} {c : ImapCommand}
    {answer : c.Reply} {h h' : History S} {s u : S.World × Tables}
    (ha : Asked J reader reader' c answer h h' s u)
    (hP : ∀ before, P ⟨before, .server c, answer, u⟩) : Occurred P h h' s u := by
  obtain ⟨h₁, s₁, s₂, hc, hkept, hsteps, rfl, hanswer, htables, hs₂, hu, -⟩ := ha.moment
  obtain ⟨tr, rfl, -⟩ := hc.past
  exact ⟨tr ++ [_], List.append_assoc .., _, List.mem_append_right _ List.mem_cons_self, hP s₂,
    ⟨hanswer, htables⟩, hc.world.trans (leads_of_steps hsteps), .refl⟩

theorem Asked.tables {reader reader' : MailboxReader} {c : ImapCommand} {answer : c.Reply}
    {h h' : History S} {s u : S.World × Tables}
    (ha : Asked J reader reader' c answer h h' s u) : Kept s.2 u.2 := by
  obtain ⟨h₁, s₁, s₂, hc, hkept, -, -, -, htables, -⟩ := ha.moment
  exact htables ▸ hc.tables.trans hkept

theorem Asked.steady {reader reader' : MailboxReader} {c : ImapCommand} {answer : c.Reply}
    {h h' : History S} {s u : S.World × Tables}
    (ha : Asked J reader reader' c answer h h' s u) : J h' u := by
  obtain ⟨h₁, s₁, s₂, -, -, -, -, -, -, -, hu, -⟩ := ha.moment
  exact hu

/-- Giving a command other than an opening or a listing of every message. -/
theorem Asked.continues {reader reader' : MailboxReader} {c : ImapCommand} {answer : c.Reply}
    {h h' : History S} {s u : S.World × Tables} (ha : Asked J reader reader' c answer h h' s u)
    (hopening : ∀ before, opening? (⟨before, .server c, answer, u⟩ : Happened S) = none)
    (haside : ∀ items, c ≠ .uidFetch .all items) : Continues J reader reader' h h' s u := by
  obtain ⟨h₁, s₁, s₂, hc, hkept, hsteps, rfl, hanswer, htables, hs₂, hu, -⟩ := ha.moment
  have hworld : ReflTransGen S.Leads s₁.1 s₂.1 := leads_of_steps hsteps
  have hstep : ReflTransGen S.Leads s₂.1 u.1 := .single (.inr ⟨c, answer, hanswer⟩)
  refine hc.trans ⟨⟨⟨_, rfl, fun e he => ?_⟩, hworld.trans hstep, hu⟩, htables ▸ hkept, ?_, rfl⟩
  · cases List.mem_singleton.mp he
    exact ⟨⟨c, rfl, haside⟩, ⟨hanswer, htables⟩, hworld, .refl⟩
  · intro ht
    rw [numbersAt_append_one, hopening, Option.none_or, ht]

/-- An opening whose numbers the reader keeps. -/
theorem opening_continues {reader reader' : MailboxReader} {c : ImapCommand} {answer : c.Reply}
    {h : History S} {s s' u : S.World × Tables}
    (hopening : opening? (⟨s', .server c, answer, u⟩ : Happened S) = some reader'.numbers)
    (haside : ∀ items, c ≠ .uidFetch .all items)
    (hnumbering : reader'.uidValidity = reader.uidValidity) (hsteps : ReflTransGen S.step s.1 s'.1)
    (hkept : Kept s.2 s'.2) (hanswer : S.answer s'.1 c answer u.1) (htables : u.2 = s'.2)
    (hu : J (h ++ [⟨s', .server c, answer, u⟩]) u) :
    Continues J reader reader' h (h ++ [⟨s', .server c, answer, u⟩]) s u := by
  have hworld : ReflTransGen S.Leads s.1 s'.1 := leads_of_steps hsteps
  refine ⟨⟨⟨_, rfl, fun e he => ?_⟩, hworld.tail (.inr ⟨c, answer, hanswer⟩), hu⟩, htables ▸ hkept,
    fun _ => ?_, hnumbering⟩
  · cases List.mem_singleton.mp he
    exact ⟨⟨c, rfl, haside⟩, ⟨hanswer, htables⟩, hworld, .refl⟩
  · rw [numbersAt_append_one, hopening, Option.some_or]

/-- The reader opened the mailbox, and nothing else happened. -/
def Opened (reader : MailboxReader) (h h' : History S) (s u : S.World × Tables) : Prop :=
  ∃ c answer before, h' = h ++ [⟨before, .server c, answer, u⟩] ∧
    opening? (⟨before, .server c, answer, u⟩ : Happened S) = some reader.numbers ∧
      ReflTransGen S.step s.1 before.1 ∧ S.answer before.1 c answer u.1 ∧ u.2 = before.2

theorem requireSameNumbering_ok {reader : MailboxReader} {numbers : MailboxNumbers} {x : Unit}
    (h : reader.requireSameNumbering numbers = .ok x) :
    numbers.uidValidity = reader.numbers.uidValidity := by
  rw [MailboxReader.requireSameNumbering] at h
  split at h
  · assumption
  · cases h

/-- What the reading of structures apart leaves of the rows. -/
structure ReadApart (rows rows' : List MessageRow) (h h' : History S)
    (s u : S.World × Tables) : Prop where
  /-- The rows that stay keep their flags. -/
  stay : ∀ row' ∈ rows', ∃ row ∈ rows, row.uid = row'.uid ∧ row.flags = row'.flags
  /-- The message of a row that is dropped was left unanswered. -/
  dropped : ∀ row ∈ rows, row.uid ∈ rows'.map MessageRow.uid ∨
    Occurred (Unanswered · row.uid) h h' s u

theorem ReadApart.nil {h h' : History S} {s u : S.World × Tables} : ReadApart [] [] h h' s u :=
  ⟨fun _ hr => absurd hr List.not_mem_nil, fun _ hr => absurd hr List.not_mem_nil⟩

theorem ReadApart.cons {row : MessageRow} {kept rows rest : List MessageRow} {h h' h'' : History S}
    {s u v : S.World × Tables} (hkept : ReadApart [row] kept h h' s u)
    (hp : Passes J Aside h h' s u) (hp' : Passes J Aside h' h'' u v)
    (hrest : ReadApart rows rest h' h'' u v) :
    ReadApart (row :: rows) (kept ++ rest) h h'' s v := by
  refine ⟨fun row' hr => ?_, fun row' hr => ?_⟩
  · rcases List.mem_append.mp hr with hr | hr
    · obtain ⟨row'', hmem, hsame⟩ := hkept.stay row' hr
      exact ⟨row'', List.mem_cons.mpr (.inl (List.mem_singleton.mp hmem)), hsame⟩
    · obtain ⟨row'', hmem, hsame⟩ := hrest.stay row' hr
      exact ⟨row'', List.mem_cons_of_mem _ hmem, hsame⟩
  · rw [List.map_append, List.mem_append]
    rcases List.mem_cons.mp hr with rfl | hr
    · exact (hkept.dropped _ List.mem_cons_self).imp .inl fun ho => ho.later hp'
    · exact (hrest.dropped row' hr).imp .inr fun ho => ho.earlier hp

/-- The rows read: of messages named, with flags their commands gave. -/
structure RowsRead (uids : List UInt32) (rows : List MessageRow) (h h' : History S)
    (s u : S.World × Tables) : Prop where
  /-- Their messages were named. -/
  named : ∀ row ∈ rows, row.uid ∈ uids
  /-- Their flags were given. -/
  given : ∀ row ∈ rows, Occurred (Gives · row.uid row.flags) h h' s u

/-- Every message named has a row, or was left unanswered. -/
def Accounted (uids : List UInt32) (rows : List MessageRow) (h h' : History S)
    (s u : S.World × Tables) : Prop :=
  ∀ uid ∈ uids, uid ∈ rows.map MessageRow.uid ∨ Occurred (Unanswered · uid) h h' s u

theorem Asked.rowsRead {reader reader' : MailboxReader} {uids : List UInt32} {items : RowItems}
    {structures : Bool}
    {answer : FetchAnswer} {h h' : History S} {s u : S.World × Tables}
    (ha : Asked J reader reader' (.uidFetch (.uids uids) (.rows items structures)) answer h
      h' s u) :
    RowsRead uids (collectRows answer.responses uids) h h' s u := by
  refine ⟨fun row hr => (mem_collectRows.mp hr).1, fun row hr => ha.occurred fun before => ?_⟩
  obtain ⟨huid, hnames, -⟩ := mem_collectRows.mp hr
  exact ⟨before, uids, items, structures, answer, u, rfl, huid, hnames, flags_of_row hr⟩

theorem Asked.accounted {reader reader' : MailboxReader} {uids : List UInt32} {items : RowItems}
    {structures : Bool} {answer : FetchAnswer} {h h' : History S} {s u : S.World × Tables}
    (ha : Asked J reader reader' (.uidFetch (.uids uids) (.rows items structures)) answer h h' s u)
    (hended : answer.ended = none) :
    Accounted uids (collectRows answer.responses uids) h h' s u := by
  intro uid huid
  by_cases hgives : GivesHeaders answer.responses uid
  · obtain ⟨row, hrow, rfl⟩ := exists_row huid hgives
    exact .inl (List.mem_map_of_mem hrow)
  · exact .inr (ha.occurred fun before => ⟨before, uids, _, answer, u, rfl, id, huid,
      hended, hgives⟩)

theorem ended_eq_none_of_completed {answer : FetchAnswer}
    (h : (collectFetches answer).ended = .completed) : answer.ended = none := by
  cases he : answer.ended with
  | none => rfl
  | some error => cases error <;> simp [collectFetches, he] at h

/-- A text command that was not rejected completed with OK. -/
theorem ended_eq_none_of_textRejected {answer : FetchAnswer}
    (h : textRejected (collectFetches answer).ended = .ok false) : answer.ended = none := by
  cases hfetch : (collectFetches answer).ended with
  | completed => exact ended_eq_none_of_completed hfetch
  | rejected reply =>
    rw [hfetch, textRejected] at h
    split at h <;> cases h
  | failed error =>
    rw [hfetch, textRejected] at h
    cases h

section Safe

variable {G : History S → Happened S → Prop} {h : History S} {s : S.World × Tables}
  (hJ : Steady J G)

include hJ

theorem command_safe (hs : J h s) {c : ImapCommand} :
    Safe (surroundings S) G h s (command c) fun answer h' u =>
      ∃ s', h' = h ++ [⟨s', .server c, answer, u⟩] ∧ ReflTransGen S.step s.1 s'.1 ∧ Kept s.2 s'.2 ∧
        S.answer s'.1 c answer u.1 ∧ u.2 = s'.2 ∧ J h s' ∧ J h' u := by
  refine .request fun s' answer u hm ha => ?_
  have hmoved := moved hm
  obtain ⟨hg, hu⟩ := hJ.server h ⟨s', .server c, answer, u⟩ ⟨⟨c, rfl⟩, ha⟩ (hJ.moved hs hm)
  exact ⟨hg, s', rfl, hmoved.1, hmoved.2.2, ha.1, ha.2, hJ.moved hs hm, hu⟩

/-- The first opening: the reader keeps its numbers. -/
theorem openMailbox_safe (hs : J h s) {mailbox : String} :
    Safe (surroundings S) G h s (MailboxReader.openMailbox mailbox) fun reader h' u =>
      numbersAt h' = some reader.numbers ∧ Passes J Aside h h' s u ∧ Kept s.2 u.2 ∧
      Opened reader h h' s u ∧
        reader.needsReconnect = false := by
  refine (command_safe hJ hs).bind ?_
  rintro answer tr u ⟨s', heq, hsteps, hkept, hanswer, htables, hs', hu⟩
  rw [heq] at hu ⊢
  refine Safe.bind_ofExcept ?_
  rintro numbers rfl
  have hcontinues : Continues J (⟨mailbox, numbers, false⟩ : MailboxReader)
    ⟨mailbox, numbers, false⟩ h
      (h ++ [⟨s', .server (.openMailbox mailbox), .ok numbers, u⟩]) s u :=
    opening_continues rfl (fun _ he => by cases he) rfl hsteps hkept hanswer htables hu
  exact .done ⟨by simp [opening?], hcontinues.toPasses, hcontinues.tables,
    ⟨_, _, s', rfl, rfl, hsteps, hanswer, htables⟩,
    rfl⟩

theorem reconnect_safe (hs : J h s) {reader : MailboxReader} :
    Safe (surroundings S) G h s reader.reconnect fun reader' h' u =>
      Continues J reader reader' h h' s u ∧ reader'.needsReconnect = false ∧
      Opened reader' h h' s u := by
  refine (command_safe hJ hs).bind ?_
  rintro answer tr u ⟨s', heq, hsteps, hkept, hanswer, htables, hs', hu⟩
  rw [heq] at hu ⊢
  refine Safe.bind_ofExcept ?_
  rintro numbers rfl
  refine Safe.bind_ofExcept fun _ hsame => ?_
  exact .done ⟨opening_continues rfl (fun _ he => by cases he) (requireSameNumbering_ok hsame)
    hsteps hkept hanswer htables hu,
    rfl, _, _, s', rfl, rfl, hsteps, hanswer, htables⟩

theorem connected_safe (hs : J h s) {reader : MailboxReader} :
    Safe (surroundings S) G h s reader.connected fun reader' h' u =>
      Continues J reader reader' h h' s u ∧ reader'.needsReconnect = false ∧
      (reader.needsReconnect = false → h' = h) := by
  rw [MailboxReader.connected]
  split
  · rename_i hneeds
    exact (reconnect_safe hJ hs).mono fun _ _ _ hq =>
      ⟨hq.1, hq.2.1, fun hnot => by rw [hneeds] at hnot; cases hnot⟩
  · rename_i hnot
    exact .done ⟨.refl hs, by simpa using hnot, fun _ => rfl⟩

/-- Another opening: the reader keeps its numbers, under the same numbering. -/
theorem reopen_safe (hs : J h s) {reader : MailboxReader} :
    Safe (surroundings S) G h s reader.reopen fun reader' h' u =>
      Continues J reader reader' h h' s u ∧ Opened reader' h h' s u ∧
      reader'.needsReconnect = false := by
  rw [MailboxReader.reopen]
  split
  · exact (reconnect_safe hJ hs).mono fun _ _ _ hq => ⟨hq.1, hq.2.2, hq.2.1⟩
  · rename_i hconnected
    refine (command_safe hJ hs).bind ?_
    rintro answer tr u ⟨s', heq, hsteps, hkept, hanswer, htables, hs', hu⟩
    rw [heq] at hu ⊢
    refine Safe.bind_ofExcept fun numbers hok => Safe.bind_ofExcept fun _ hsame => ?_
    have hopening : opening? (⟨s', .server (.select reader.mailboxName), answer, u⟩ : Happened S) =
        some numbers := by
      cases answer with
      | ok numbers' =>
        cases hok
        rfl
      | error error => cases hok
    exact .done ⟨opening_continues hopening (fun _ he => by cases he)
      (requireSameNumbering_ok hsame) hsteps hkept hanswer
      htables hu, ⟨_, _, s', rfl, hopening, hsteps, hanswer, htables⟩, by simpa using hconnected⟩

theorem asked_safe (hs : J h s) {reader : MailboxReader} {c : ImapCommand} {α : Type}
    {k : MailboxReader → c.Reply → ImapProgram α} {Q : α → History S → S.World × Tables → Prop}
    (hk : ∀ reader' answer h' u, Asked J reader reader' c answer h h' s u → reader'.needsReconnect =
      false → Safe (surroundings S) G h' u (k reader' answer) Q) :
    Safe (surroundings S) G h s (reader.connected.bind fun reader' => (command c).bind fun answer =>
      k reader' answer) Q := by
  refine (connected_safe hJ hs).bind ?_
  rintro reader' tr u ⟨hcontinues, hconnected, hsame⟩
  refine (command_safe hJ hcontinues.steady).bind ?_
  rintro answer tr' v ⟨s', heq, hsteps, hkept, hanswer, htables, hs', hu⟩
  rw [heq] at hu ⊢
  exact hk reader' answer _ v ⟨_, u, s', hcontinues, hkept, hsteps, rfl, hanswer, htables, hs', hu,
    hsame⟩ hconnected

/-- **A listing** is what the responses to its command report; it is complete when the
command completed with OK. -/
theorem fetchListing_safe (hs : J h s) {reader : MailboxReader} {set : UidSet}
    {items : FetchItems} :
    Safe (surroundings S) G h s (reader.fetchListing set items) fun r h' u =>
      ∃ answer, Asked J reader r.2 (.uidFetch set items) answer h h' s u ∧
        r.1.messages = listing answer.responses ∧
        (r.1.refusal = none ↔ answer.ended = none) := by
  refine asked_safe hJ hs (c := .uidFetch set items) fun reader' answer h' u hasked _ => ?_
  split
  · rename_i hended
    exact .done ⟨answer, hasked, rfl, by simp [hended]⟩
  · rename_i hended
    exact .done ⟨answer, hasked, rfl, by simp [hended]⟩
  · rename_i hended
    exact .done ⟨answer, hasked, rfl, by simp [hended]⟩
  · exact .fail

/-- **A listing of the mailbox**; an empty one stands for an opening that counted nothing. -/
theorem list_safe (hs : J h s) {reader : MailboxReader} {items : RowItems}
    {changedSince : Option UInt64} :
    Safe (surroundings S) G h s (reader.list items changedSince) fun r h' u =>
      (reader.numbers.messageCount = 0 ∧ r = (⟨[], none⟩, reader) ∧ h' = h ∧ u = s) ∨
        ∃ answer, Asked J reader r.2 (.uidFetch .all (.listing items changedSince)) answer
          h h' s u ∧
          r.1.messages = listing answer.responses ∧ (r.1.refusal = none ↔ answer.ended = none) := by
  rw [MailboxReader.list]
  split
  · rename_i hcount
    exact .done (.inl ⟨hcount, rfl, rfl, rfl⟩)
  · exact (fetchListing_safe hJ hs).mono fun _ _ _ hq => .inr hq

/-- One FETCH command for some messages. -/
theorem fetch_safe (hs : J h s) {reader : MailboxReader} {uids : List UInt32} {items : FetchItems} :
    Safe (surroundings S) G h s (reader.fetch uids items) fun r h' u =>
      ∃ reader' answer, Asked J reader reader' (.uidFetch (.uids uids) items) answer h h' s u ∧
        r.1 = collectFetches answer ∧ Continues J reader r.2 h h' s u := by
  refine asked_safe hJ hs (c := .uidFetch (.uids uids) items) fun reader' answer h' u hasked _ => ?_
  have hcontinues : Continues J reader reader' h h' s u :=
    hasked.continues (fun _ => rfl) fun _ he => by cases he
  exact .done ⟨reader', answer, hasked, rfl, hcontinues.toPasses, hcontinues.tables,
    hcontinues.tracks, hcontinues.numbering⟩

/-- **The structures read apart**: every row keeps its flags, and one that is dropped was
left unanswered. -/
theorem fetchStructuresApart_safe (hs : J h s) {reader : MailboxReader} {rows : List MessageRow} :
    Safe (surroundings S) G h s (reader.fetchStructuresApart rows) fun r h' u =>
      Continues J reader r.2 h h' s u ∧ ReadApart rows r.1 h h' s u := by
  induction rows generalizing reader h s with
  | nil => exact .done ⟨.refl hs, .nil⟩
  | cons row rows ih =>
    refine (fetch_safe hJ hs).bind ?_
    rintro ⟨_, reader₁⟩ tr u ⟨reader', answer, hasked, rfl, hcontinues⟩
    -- what the rest leaves, when `kept` is what becomes of this row
    have hrest : ∀ kept, ReadApart [row] kept h (h ++ tr) s u →
        Safe (surroundings S) G (h ++ tr) u
          ((reader₁.fetchStructuresApart rows).bind fun r =>
            (.done (kept ++ r.1, r.2) : ImapProgram (List MessageRow × MailboxReader)))
          fun r h' u => Continues J reader r.2 h h' s u ∧ ReadApart (row :: rows) r.1 h h' s u := by
      intro kept hkept
      refine (ih hcontinues.steady).bind ?_
      rintro ⟨rest, reader₂⟩ tr' v ⟨hc, hleft⟩
      exact .done ⟨hcontinues.trans hc, hkept.cons hcontinues.toPasses hc.toPasses hleft⟩
    have hsame : ReadApart [row] [{ row with structure' := structureOf answer.responses }] h
        (h ++ tr) s u :=
      ⟨fun _ hr => ⟨row, List.mem_cons_self, by cases List.mem_singleton.mp hr; exact ⟨rfl, rfl⟩⟩,
        fun _ hr => .inl (by cases List.mem_singleton.mp hr; exact List.mem_cons_self)⟩
    cases hended : (collectFetches answer).ended with
    | completed =>
      simp only [hended]
      cases hstructure : structureOf answer.responses with
      | some part =>
        rw [hstructure] at hsame
        simpa [collectFetches, hstructure] using hrest _ hsame
      | none =>
        have hunanswered : Occurred (Unanswered · row.uid) h (h ++ tr) s u := by
          refine hasked.occurred fun before =>
            ⟨before, [row.uid], .structure', answer, u, rfl, id, List.mem_cons_self, ?_, ?_⟩
          · exact ended_eq_none_of_completed hended
          · rintro ⟨fetch, hf, hs⟩
            rw [List.findSome?_eq_none_iff.mp hstructure fetch hf] at hs
            cases hs
        have := hrest [] ⟨fun _ hr => absurd hr List.not_mem_nil,
          fun _ hr => .inr (by cases List.mem_singleton.mp hr; exact hunanswered)⟩
        simpa [collectFetches, hstructure] using this
    | rejected reply =>
      simp only [hended]
      split
      · exact .fail
      · exact hrest _ hsame
    | failed error =>
      simp only [hended]
      split
      · exact hrest _ hsame
      · exact .fail

theorem readUnansweredApart_safe (hs : J h s) {reader : MailboxReader} {uids : List UInt32}
    {items : RowItems} {rows : List MessageRow} {h₀ : History S} {s₀ : S.World × Tables}
    (hrows : RowsRead uids rows h₀ h s₀ s) (hp : Passes J Aside h₀ h s₀ s) :
    Safe (surroundings S) G h s (reader.readUnansweredApart uids items rows) fun r h' u =>
      Continues J reader r.2.2 h h' s u ∧ RowsRead uids r.1 h₀ h' s₀ u ∧
        (r.2.1 = none → Accounted uids r.1 h₀ h' s₀ u) := by
  have hkept : ∀ row ∈ rows.filter fun row => row.structure'.isSome, row ∈ rows :=
    fun row hr => (List.mem_filter.mp hr).1
  rw [MailboxReader.readUnansweredApart]
  generalize rows.filter (fun row => row.structure'.isSome) = rows' at hkept ⊢
  split
  · rename_i hnone
    refine .done ⟨.refl hs, ⟨fun row hr => hrows.named row (hkept row hr), fun row hr =>
      hrows.given row (hkept row hr)⟩, ?_⟩
    intro _ uid huid
    have := List.filter_eq_nil_iff.mp hnone uid huid
    exact .inl (by simpa using this)
  · refine (fetch_safe hJ hs).bind ?_
    rintro ⟨_, reader₁⟩ tr u ⟨reader', answer, hasked, rfl, hcontinues⟩
    refine Safe.bind_ofExcept fun refusal hrefusal => ?_
    refine (fetchStructuresApart_safe hJ hcontinues.steady).bind ?_
    rintro ⟨apart, reader₂⟩ tr' v ⟨hc, happart⟩
    have hmem : ∀ row, row ∈ (rows' ++ apart).insertionSort (fun a b => b.uid ≤ a.uid) ↔
        row ∈ rows' ∨ row ∈ apart := by
      intro row
      rw [(List.perm_insertionSort _ _).mem_iff, List.mem_append]
    have hread := hasked.rowsRead
    refine .done ⟨hcontinues.trans hc, ⟨fun row hr => ?_, fun row hr => ?_⟩,
      fun hnone uid huid => ?_⟩
    · rcases (hmem row).mp hr with hr | hr
      · exact hrows.named row (hkept row hr)
      · obtain ⟨row', hr', hu, -⟩ := happart.stay row hr
        exact hu ▸ (List.mem_filter.mp (hread.named row' hr')).1
    · rcases (hmem row).mp hr with hr | hr
      · exact ((hrows.given row (hkept row hr)).later hcontinues.toPasses).later hc.toPasses
      · obtain ⟨row', hr', hu, hf⟩ := happart.stay row hr
        exact hu ▸ hf ▸ (((hread.given row' hr').later hc.toPasses).earlier hp)
    · have hended : answer.ended = none := by
        cases hfetch : (collectFetches answer).ended with
        | completed => exact ended_eq_none_of_completed hfetch
        | rejected reply =>
          rw [hfetch, rowRefusal] at hrefusal
          cases Except.ok.inj hrefusal ▸ hnone
        | failed error =>
          rw [hfetch, rowRefusal] at hrefusal
          cases hrefusal
      by_cases hrow : uid ∈ rows'.map MessageRow.uid
      · obtain ⟨row, hr, rfl⟩ := List.mem_map.mp hrow
        exact .inl (List.mem_map_of_mem ((hmem row).mpr (.inl hr)))
      · have hasked' := hasked.accounted hended uid
          (List.mem_filter.mpr ⟨huid, by simpa using hrow⟩)
        rcases hasked' with hrow' | ho
        · obtain ⟨row, hr, rfl⟩ := List.mem_map.mp hrow'
          rcases happart.dropped row hr with hd | hd
          · obtain ⟨row', hr', hu⟩ := List.mem_map.mp hd
            exact .inl (List.mem_map.mpr ⟨row', (hmem row').mpr (.inr hr'), hu⟩)
          · exact .inr ((hd.earlier hcontinues.toPasses).earlier hp)
        · exact .inr ((ho.later hc.toPasses).earlier hp)

/-- **The rows of the given messages**: each with flags a command gave, and unless the server
refused to finish, a message without a row was left unanswered. -/
theorem fetchRowsByUid_safe (hs : J h s) {reader : MailboxReader} {uids : List UInt32}
    {items : RowItems} :
    Safe (surroundings S) G h s (reader.fetchRowsByUid uids items) fun r h' u =>
      Continues J reader r.2 h h' s u ∧ RowsRead uids r.1.rows h h' s u ∧
        (r.1.refusal = none → Accounted uids r.1.rows h h' s u) := by
  rw [MailboxReader.fetchRowsByUid]
  split
  · rename_i hnil
    subst hnil
    exact .done ⟨.refl hs, ⟨fun _ hr => absurd hr List.not_mem_nil, fun _ hr =>
      absurd hr List.not_mem_nil⟩,
      fun _ _ hu => absurd hu List.not_mem_nil⟩
  · refine (fetch_safe hJ hs).bind ?_
    rintro ⟨_, reader₁⟩ tr u ⟨reader', answer, hasked, rfl, hcontinues⟩
    have hapart : Safe (surroundings S) G (h ++ tr) u
        ((reader₁.readUnansweredApart uids items (collectRows answer.responses uids)).bind fun r =>
          (.done (⟨r.1, r.2.1⟩, r.2.2) : ImapProgram (MessageList × MailboxReader)))
        fun r h' u => Continues J reader r.2 h h' s u ∧ RowsRead uids r.1.rows h h' s u ∧
          (r.1.refusal = none → Accounted uids r.1.rows h h' s u) := by
      refine (readUnansweredApart_safe hJ hcontinues.steady hasked.rowsRead
        hcontinues.toPasses).bind ?_
      rintro ⟨rows, refusal, reader₂⟩ tr' v ⟨hc, hread, haccounted⟩
      exact .done ⟨hcontinues.trans hc, hread, haccounted⟩
    cases hended : (collectFetches answer).ended with
    | completed =>
      simp only [hended]
      exact .done ⟨hcontinues, hasked.rowsRead, fun _ => hasked.accounted
        (ended_eq_none_of_completed hended)⟩
    | rejected reply =>
      simp only [hended]
      split
      · exact .done ⟨hcontinues, hasked.rowsRead, fun hnone => by cases hnone⟩
      · exact hapart
    | failed error =>
      simp only [hended]
      split
      · exact hapart
      · exact .fail

/-- **The texts**: a message reported gone was left unanswered. -/
theorem fetchShapes_safe (hs : J h s) {reader : MailboxReader}
    {shapes : List ((TextParts × Option UInt32) × List UInt32)} :
    Safe (surroundings S) G h s (reader.fetchShapes shapes) fun r h' u =>
      Continues J reader r.2 h h' s u ∧ ∀ t ∈ r.1, t.2.2 = .disappeared →
      Occurred (Unanswered · t.1) h h' s u := by
  induction shapes generalizing reader h s with
  | nil => exact .done ⟨.refl hs, fun _ ht => absurd ht List.not_mem_nil⟩
  | cons shape shapes ih =>
    obtain ⟨⟨parts, limit⟩, uids⟩ := shape
    refine (fetch_safe hJ hs).bind ?_
    rintro ⟨_, reader₁⟩ tr u ⟨reader', answer, hasked, rfl, hcontinues⟩
    refine Safe.bind_ofExcept fun rejected hrejected => ?_
    refine (ih hcontinues.steady).bind ?_
    rintro ⟨rest, reader₂⟩ tr' v ⟨hc, hrest⟩
    refine .done ⟨hcontinues.trans hc, fun t ht hgone => ?_⟩
    rcases List.mem_append.mp ht with ht | ht
    · obtain ⟨uid, huid, rfl⟩ := List.mem_map.mp ht
      obtain ⟨hnames, hok⟩ := messageText_disappeared hgone
      have hended : answer.ended = none := ended_eq_none_of_textRejected (hok ▸ hrejected)
      have hunanswered : Occurred (Unanswered · uid) h (h ++ tr) s u :=
        hasked.occurred fun before => ⟨before, uids, _, answer, u, rfl, id, huid, hended, hnames⟩
      exact hunanswered.later hc.toPasses
    · exact (hrest t ht hgone).earlier hcontinues.toPasses

/-- The texts of the requested messages. -/
theorem fetchText_safe (hs : J h s) {reader : MailboxReader} {requests : List TextRequest} :
    Safe (surroundings S) G h s (reader.fetchText requests) fun r h' u =>
      Continues J reader r.2 h h' s u ∧ ∀ t ∈ r.1, t.2.2 = .disappeared →
      Occurred (Unanswered · t.1) h h' s u :=
  fetchShapes_safe hJ hs

/-- **A flag's command**: without a refusal the server completed it with OK. -/
theorem storeFlags_safe (hs : J h s) {reader : MailboxReader} {uids : List UInt32}
    {flag : MessageFlag} {set : Bool} :
    Safe (surroundings S) G h s (reader.storeFlags uids flag set) fun r h' u =>
      ∃ answer, Asked J reader r.2 (.uidStore uids flag set) answer h h' s u ∧
        r.2.needsReconnect = false ∧
        (r.1 = none → answer.ended = none) := by
  refine asked_safe hJ hs (c := .uidStore uids flag set)
    fun reader' answer h' u hasked hconnected => ?_
  cases hended : (collectFetches answer).ended with
  | completed =>
    exact .done ⟨answer, hasked, hconnected, fun _ => ended_eq_none_of_completed hended⟩
  | rejected reply =>
    exact .done ⟨answer, hasked, hconnected, fun hnone => by cases hnone⟩
  | failed error =>
    cases error with
    | bad status => exact .done ⟨answer, hasked, hconnected, fun hnone => by cases hnone⟩
    | no status => exact .fail
    | bye status => exact .fail
    | timedOut => exact .fail
    | unparsable => exact .fail
    | broken => exact .fail

end Safe

end Mailbag.Imap
