import Mailbag.Cycle.SentWishes

/-!
# What an IMAP cycle sends

A cycle has a sending step after its listing and after every batch it stores, and the user
goes on wishing meanwhile. Each step reads the folder's pending changes and goes through
them in commands of a hundred messages; the cycle remembers the value it last sent for a
flag of a message.

## What is proved

* `synchronizeImapFolder_sends` — what every event of a cycle keeps to.
* `sent_changes` — in every run a command names at most a hundred messages, by the UIDs of
  the first listing, with a wish read at the start of its step and another value than the
  last one sent; and a refused command ends the wishes it carried, and the cycle.
-/

namespace Mailbag.Cycle

open Collections Imap Interaction Program Relation Store

variable {S : Server ImapCommand.Reply} {rule : IdentityRule} {folder : FolderRef}

/-! ### One command -/

/-- What was sent is remembered: the command's value for each of its messages. -/
theorem lookup_sent (identities : List String) (sent : SentChanges) (flag : MessageFlag)
    (wanted : Bool) (identity : String) (flag' : MessageFlag) :
    (identities.foldl (fun sent identity => ((identity, flag), wanted) :: sent) sent).lookup
    (identity, flag') =
      if identity ∈ identities ∧ flag' = flag then some wanted
          else sent.lookup (identity, flag') := by
  induction identities generalizing sent with
  | nil => simp
  | cons i identities ih =>
    rw [List.foldl_cons, ih]
    by_cases hin : identity ∈ identities ∧ flag' = flag
    · rw [if_pos hin, if_pos ⟨List.mem_cons_of_mem _ hin.1, hin.2⟩]
    · rw [if_neg hin]
      by_cases hi : identity = i ∧ flag' = flag
      · rw [hi.1, hi.2, List.lookup_cons_self, if_pos ⟨List.mem_cons_self, rfl⟩]
      · have hne : ¬(identity, flag') = (i, flag) := fun h => hi (Prod.mk.inj h)
        rw [List.lookup_cons, beq_false_of_ne hne,
          if_neg fun h => (List.mem_cons.mp h.1).elim (fun hi' => hi ⟨hi', h.2⟩) fun h' =>
            hin ⟨h', h.2⟩]

section Send

variable {listed : List ListedMessage} {sent : SentChanges} {pending : List PendingChange}
  {h : History S} {s u : S.World × Tables} {flag : MessageFlag} {wanted : Bool}
  {messages : List (String × UInt32)}

theorem Addressed.named_iff (ha : Addressed listed messages) (hone : OnePerUid listed)
    {identity : String} {message : ListedMessage}
    (hlatest : latest identity (byIdentity listed) = some message) :
    identity ∈ messages.map Prod.fst ↔ message.uid ∈ messages.map Prod.snd := by
  constructor
  · intro hi
    obtain ⟨p, hp, rfl⟩ := List.mem_map.mp hi
    obtain ⟨message', hlatest', huid⟩ := ha p hp
    cases hlatest.symm.trans hlatest'
    exact huid ▸ List.mem_map_of_mem hp
  · intro hu
    obtain ⟨p, hp, huid⟩ := List.mem_map.mp hu
    obtain ⟨message', hlatest', huid'⟩ := ha p hp
    obtain ⟨hm, rfl⟩ := mem_of_byIdentity hlatest
    obtain ⟨hm', hi'⟩ := mem_of_byIdentity hlatest'
    obtain rfl := hone message hm message' hm' (huid.symm.trans huid'.symm)
    exact hi' ▸ List.mem_map_of_mem hp

/-- After a command that was not refused the cycle remembers its values. -/
theorem Remembers.command (hr : Remembers rule folder listed sent h s)
    (ha : Addressed listed messages) {e : Happened S}
    (hop : e.op = .server (.uidStore (messages.map Prod.snd) flag wanted))
    (hok : ∀ uids flag value, ¬Refused e uids flag value) (hu : Shape u.2) :
    Remembers rule folder listed
      ((messages.map Prod.fst).foldl (fun sent identity => ((identity, flag), wanted) :: sent) sent)
      (h ++ [e]) u := by
  refine ⟨hu, fun hne => (hr.first hne).append [e], fun identity message flag' hm => ?_,
    fun e' he' uids flag value hrefused => ?_⟩
  · have hvalue : sentValue? message.uid flag' e =
        if message.uid ∈ messages.map Prod.snd ∧ flag = flag' then some wanted else none := by
      rw [sentValue?, hop]
    have hnamed := ha.named_iff hr.onePerUid hm
    rw [lookup_sent, lastSent_append_one, hvalue, hr.sent identity message flag' hm]
    by_cases hsent : message.uid ∈ messages.map Prod.snd ∧ flag' = flag
    · rw [if_pos ⟨hnamed.mpr hsent.1, hsent.2⟩, if_pos ⟨hsent.1, hsent.2.symm⟩, Option.some_or]
    · rw [if_neg fun h => hsent ⟨hnamed.mp h.1, h.2⟩, if_neg fun h => hsent ⟨h.1, h.2.symm⟩,
        Option.none_or]
  · rcases List.mem_append.mp he' with he' | he'
    · exact hr.unrefused e' he' uids flag value hrefused
    · cases List.mem_singleton.mp he'
      exact hok uids flag value hrefused

theorem StepOf.append (hs : StepOf folder pending h) {e : Happened S} (he : InStep e) :
    StepOf folder pending (h ++ [e]) := by
  obtain ⟨h₁, before, after, h₂, rfl, hin, hchanges⟩ := hs
  refine ⟨h₁, before, after, h₂ ++ [e], by simp, fun e' he' => ?_, hchanges⟩
  rcases List.mem_append.mp he' with he' | he'
  · exact hin e' he'
  · cases List.mem_singleton.mp he'
    exact he

theorem CommandOf.sends (hc : CommandOf listed sent pending ((flag, wanted), messages))
    (hr : Remembers rule folder listed sent h s) (hs : StepOf folder pending h) {e : Happened S}
    (hop : e.op = .server (.uidStore (messages.map Prod.snd) flag wanted)) :
    Sends rule folder h e := by
  constructor
  · intro uids flag' value hop'
    rw [hop] at hop'
    cases hop'
    refine ⟨by rw [List.length_map]; exact hc.few, fun uid huid => ?_⟩
    obtain ⟨p, hp, rfl⟩ := List.mem_map.mp huid
    obtain ⟨message, hlatest, hmessage⟩ := hc.addressed p hp
    have hne : listed ≠ [] := List.ne_nil_of_mem (mem_of_byIdentity hlatest).1
    refine ⟨?_, p.1, pending, (hr.first hne).firstGave_iff.mpr ⟨message, hlatest, hmessage⟩, hs,
      hc.wished p hp⟩
    rw [← hmessage, ← hr.sent p.1 message flag hlatest]
    exact hc.other p hp
  · rintro h₁ g h₂ uids flag' value rfl hrefused
    exact absurd hrefused (hr.unrefused g (by simp) uids flag' value)

/-- What the flag's command leaves: it was given, and the server completed it or refused it. -/
structure Gave (rule : IdentityRule) (folder : FolderRef) (listed : List ListedMessage)
    (sent : SentChanges) (pending : List PendingChange) (uids : List UInt32) (flag : MessageFlag)
    (wanted : Bool) (refusal : Option ImapError) (h : History S) (s : S.World × Tables) : Prop where
  /-- The command, the last so far. -/
  moment : ∃ h₁ before answer, h = h₁ ++
    [⟨before, .server (.uidStore uids flag wanted), answer, s⟩] ∧
    Remembers rule folder listed sent h₁ before ∧ StepOf folder pending h₁ ∧ Shape s.2 ∧
      (refusal = none ∧ answer.ended = none ∨
        refusal.isSome ∧ Refused
          (⟨before, .server (.uidStore uids flag wanted), answer, s⟩ : Happened S) uids flag wanted)

/-- Commands and the ends of changes keep a step going. -/
theorem inStep_safe {ε α : Type}
    {p : Program (CycleOp ImapCommand) (CycleAns ImapCommand.Reply) ε α}
    (hp : p.Asks fun o => ¬ChangesFlags o ∧ ∀ before answer after,
      InStep (⟨before, o, answer, after⟩ : Happened S))
    (hr : Remembers rule folder listed sent h s) (hs : StepOf folder pending h) :
    Safe (surroundings S) (Sends rule folder) h s p fun _ h' u => Remembers rule folder listed sent
      h' u ∧ StepOf folder pending h' :=
  Safe.asks (I := fun h' u => Remembers rule folder listed sent h' u ∧ StepOf folder pending h') hp
    (fun _ _ _ hi hm => ⟨hi.1.others hm, hi.2⟩)
    (fun _ _ _ _ _ hi ho ha => ⟨hi.1.sends ho.1, hi.1.append ho.1 (answered_shape hi.1.shape ha),
      hi.2.append (ho.2 _ _ _)⟩)
    ⟨hr, hs⟩

theorem reads_inStep {o : CycleOp ImapCommand} (ho : Reads o) :
    ¬ChangesFlags o ∧ ∀ before answer after, InStep (⟨before, o, answer, after⟩ : Happened S) := by
  obtain ⟨c, rfl, hnot⟩ := ho
  exact ⟨hnot, fun _ _ _ => .inl ⟨c, rfl⟩⟩

/-- **The flag's command.** -/
theorem storeFlags_sends {reader : MailboxReader}
    (hc : CommandOf listed sent pending ((flag, wanted), messages))
    (hr : Remembers rule folder listed sent h s) (hs : StepOf folder pending h) :
    Safe (surroundings S) (Sends rule folder) h s
    (reader.storeFlags (messages.map Prod.snd) flag wanted)
      fun r h' u => Gave rule folder listed sent pending (messages.map Prod.snd) flag wanted r.1
        h' u := by
  refine (inStep_safe ((connected_reads reader).mono fun _ => reads_inStep) hr hs).bind ?_
  rintro reader' tr u ⟨hr', hs'⟩
  refine Safe.bind (R := fun answer h' u' => ∃ before, h' = h ++ tr ++ [⟨before,
    .server (.uidStore (messages.map Prod.snd) flag wanted), answer, u'⟩] ∧
    Remembers rule folder listed sent (h ++ tr) before ∧
      Shape u'.2) (.request fun s' answer u' hm ha => ?_) ?_
  · have htables : u'.2 = s'.2 := And.right ha
    exact ⟨hc.sends (hr'.later hm) hs' rfl, s', rfl, hr'.later hm, htables ▸ (hr'.later hm).shape⟩
  · rintro ⟨responses, ended⟩ tr' v ⟨before, heq, hbefore, hshape⟩
    rw [heq]
    cases ended with
    | none => exact .done ⟨h ++ tr, before, _, rfl, hbefore, hs', hshape, .inl ⟨rfl, rfl⟩⟩
    | some error =>
      cases error with
      | no status =>
        exact .done ⟨h ++ tr, before, _, rfl, hbefore, hs', hshape,
          .inr ⟨rfl, before, _, v, status, rfl, .inl rfl⟩⟩
      | bad status =>
        exact .done ⟨h ++ tr, before, _, rfl, hbefore, hs', hshape,
          .inr ⟨rfl, before, _, v, status, rfl, .inr rfl⟩⟩
      | bye status => exact .fail
      | timedOut => exact .fail
      | unparsable => exact .fail
      | broken => exact .fail

theorem dropPending_sends {batches : BatchWriter} (hfolder : batches.folder = folder)
    {refusal : Option ImapError} (ha : Addressed listed messages)
    (hg : Gave rule folder listed sent pending (messages.map Prod.snd) flag wanted refusal h s) :
    Safe (surroundings S) (Sends rule folder) h s
      (batches.dropPending (messages.map Prod.fst) flag wanted) fun _ _ _ => True := by
  subst hfolder
  obtain ⟨h₁, b₁, a₁, rfl, hr, -, hshape, hend⟩ := hg.moment
  refine Safe.bind (R := fun _ _ _ => True) (.request fun s' answer u hm hans => ⟨?_, trivial⟩)
    fun _ _ _ _ => .ofExcept fun _ _ => trivial
  refine ⟨fun uids flag' value hop => (by cases hop),
    fun h₂ g h₃ uids flag' value heq hrefused => ?_⟩
  rcases List.eq_nil_or_concat h₃ with rfl | ⟨h₄, e, rfl⟩
  · obtain ⟨rfl, hsame⟩ := List.append_inj' heq rfl
    cases hsame
    cases hrefused.changesFlags
    refine ⟨rfl, _, s', answer, u, rfl, fun identity => ?_, ?_⟩
    · have hgiven : ∀ p ∈ messages, GivenBy rule batches.folder listed h₁ := fun p hp => by
        obtain ⟨message, hlatest, -⟩ := ha p hp
        exact hr.first (List.ne_nil_of_mem (mem_of_byIdentity hlatest).1)
      constructor
      · intro hi
        obtain ⟨p, hp, rfl⟩ := List.mem_map.mp hi
        exact ⟨p.2, List.mem_map_of_mem hp, ((hgiven p hp).append _).firstGave_iff.mpr (ha p hp)⟩
      · rintro ⟨uid, huid, hgave⟩
        obtain ⟨p, hp, -⟩ := List.mem_map.mp huid
        obtain ⟨message, hlatest, rfl⟩ := ((hgiven p hp).append _).firstGave_iff.mp hgave
        exact (ha.named_iff hr.onePerUid hlatest).mpr huid
    · rintro rfl account identity flag'
      obtain ⟨-, met, hcall⟩ := hans
      exact dropPendingFlags_spec hcall.symm account identity flag'
  · rw [List.concat_eq_append] at heq
    obtain ⟨rfl, -⟩ := List.append_inj' (heq.trans (by simp) : h₁ ++ _ = (h₂ ++ g :: h₄) ++ [e]) rfl
    exact absurd hrefused (hr.unrefused g (by simp) uids flag' value)

/-- **One command**: what is sent is remembered, and the step goes on. -/
theorem sendCommand_sends {reader : MailboxReader} {batches : BatchWriter}
    (hfolder : batches.folder = folder)
    (hc : CommandOf listed sent pending ((flag, wanted), messages))
    (hr : Remembers rule folder listed sent h s) (hs : StepOf folder pending h) :
    Safe (surroundings S) (Sends rule folder) h s
    (sendCommand reader sent batches flag wanted messages) fun r h' u =>
      r.2 = (messages.map Prod.fst).foldl (fun sent identity => ((identity, flag), wanted) ::
        sent) sent ∧
        Remembers rule folder listed r.2 h' u ∧ StepOf folder pending h' := by
  refine (Safe.mapFail (storeFlags_sends hc hr hs)).bind ?_
  rintro ⟨refusal, reader₁⟩ tr u hgave
  cases refusal with
  | some refusal => exact (dropPending_sends hfolder hc.addressed hgave).bind fun _ _ _ _ => .fail
  | none =>
    obtain ⟨h₁, before, answer, heq, hbefore, hstep, hshape, hend⟩ := hgave.moment
    have hok : answer.ended = none := by
      rcases hend with ⟨-, hok⟩ | ⟨hsome, -⟩
      · exact hok
      · cases hsome
    have hremembers : Remembers rule folder listed
        ((messages.map Prod.fst).foldl (fun sent identity => ((identity, flag), wanted) :: sent)
          sent) (h ++ tr) u := by
      rw [heq]
      refine hbefore.command hc.addressed rfl ?_ hshape
      rintro uids flag' value ⟨b, a, c, status, he, hended⟩
      cases he
      rw [hok] at hended
      rcases hended with hended | hended <;> cases hended
    have hgoing : StepOf folder pending (h ++ tr) := by
      rw [heq]
      exact hstep.append (.inl ⟨_, rfl⟩)
    refine (Safe.mapFail (inStep_safe ((fetchListing_reads reader₁ _ _).mono fun _ => reads_inStep)
      hremembers hgoing)).bind ?_
    rintro ⟨reading, reader₂⟩ tr' v ⟨hr', hs'⟩
    dsimp only
    split
    · exact .done ⟨rfl, hr', hs'⟩
    · have hsettle : (batches.settle (confirmedBy reading flag wanted messages) flag
          wanted : ImapCycle Unit).Asks fun o =>
          ¬ChangesFlags o ∧ ∀ before answer after, InStep
            (⟨before, o, answer, after⟩ : Happened S) :=
        Asks.bind (Asks.request (o := CycleOp.store _)
          ⟨not_changesFlags_store _, fun _ _ _ => .inr ⟨_, _, _, _, rfl⟩⟩)
          fun _ => .ofExcept _
      exact (inStep_safe hsettle hr' hs').bind fun _ _ _ hq => .done ⟨rfl, hq⟩

theorem sendCommands_sends {batches : BatchWriter} (hfolder : batches.folder = folder)
    {commands : List ((MessageFlag × Bool) × List (String × UInt32))} {reader : MailboxReader}
    (hcommands : ∀ command ∈ commands, CommandOf listed sent pending command)
    (hapart : commands.Pairwise Apart) (hr : Remembers rule folder listed sent h s)
    (hs : StepOf folder pending h) :
    Safe (surroundings S) (Sends rule folder) h s (sendCommands batches commands reader sent)
    fun r h' u =>
      Remembers rule folder listed r.2 h' u := by
  induction commands generalizing h s reader sent with
  | nil => exact .done hr
  | cons c commands ih =>
    obtain ⟨⟨flag, wanted⟩, messages⟩ := c
    obtain ⟨hfirst, hrest⟩ := List.pairwise_cons.mp hapart
    refine (sendCommand_sends hfolder (hcommands _ List.mem_cons_self) hr hs).bind ?_
    rintro ⟨reader₁, sent₁⟩ tr u ⟨rfl, hr', hs'⟩
    refine ih (fun command hc => ?_) hrest hr' hs'
    have hcommand := hcommands command (List.mem_cons_of_mem _ hc)
    refine ⟨hcommand.addressed, hcommand.few, hcommand.wished, fun p hp => ?_⟩
    rw [lookup_sent]
    split
    · -- the same flag: for the same value the command names other messages
      rename_i hnamed
      intro hvalue
      obtain ⟨p', hp', hi⟩ := List.mem_map.mp hnamed.1
      exact hfirst command hc (Prod.ext hnamed.2.symm (Option.some.inj hvalue)) p' hp' p hp hi
    · exact hcommand.other p hp

/-- **A sending step.** -/
theorem sendImapChanges_sends {batches : BatchWriter} (hfolder : batches.folder = folder)
    {reader : MailboxReader} (hr : Remembers rule folder listed sent h s) :
    Safe (surroundings S) (Sends rule folder) h s (sendImapChanges reader listed sent batches)
    fun r h' u =>
      Remembers rule folder listed r.2 h' u := by
  subst hfolder
  refine Safe.bind (R := fun pending h' u => Collections.Unique PendingChange.key pending ∧
    Remembers rule batches.folder listed sent h' u ∧ StepOf batches.folder pending h') ?_ ?_
  · refine Safe.bind (R := fun answer h' u => ∀ pending, answer = .ok pending →
      Collections.Unique PendingChange.key pending ∧
      Remembers rule batches.folder listed sent h' u ∧ StepOf batches.folder pending h')
        (.request fun s' answer u hm ha => ?_) ?_
    · have hr' := hr.later hm
      have hread := not_changesFlags_store (.readPendingChanges batches.folder)
      refine ⟨hr'.sends hread, ?_⟩
      rintro pending rfl
      obtain ⟨hsame, met, hcall⟩ := ha
      obtain ⟨htables, hwishes⟩ := readPendingChanges_spec hr'.shape.toLinked hcall.symm
      exact ⟨readPendingChanges_unique hr'.shape.toLinked hcall.symm,
        hr'.append hread (htables ▸ hr'.shape),
        h, s', u, [], rfl, fun _ he => absurd he List.not_mem_nil, hwishes⟩
    · rintro answer tr u hq
      refine .ofExcept fun pending hok => hq pending ?_
      cases answer with
      | error failure => cases hok
      | ok pending' =>
        cases hok
        rfl
  · rintro pending tr u ⟨hunique, hr', hs'⟩
    obtain ⟨hcommands, hapart⟩ := commandsToSend_spec listed sent hunique
    exact sendCommands_sends rfl hcommands hapart hr' hs'

/-- **The missing messages**, with a sending step after each batch. -/
theorem fetchMissing_sends {batches : BatchWriter} (hfolder : batches.folder = folder)
    {rules : ContentRules} {recentLimit : ℤ} {chunks : List (List ListedMessage)}
    {server : ImapFolder} (hr : Remembers rule folder listed sent h s) :
    Safe (surroundings S) (Sends rule folder) h s
    (fetchMissing rules recentLimit batches listed chunks server sent) fun _ h' u =>
      ∃ sent', Remembers rule folder listed sent' h' u := by
  induction chunks generalizing h s server sent with
  | nil => exact .done ⟨sent, hr⟩
  | cons chunk rest ih =>
    refine (changesNone_safe (fetchArrivals_changesNone _ _ _ _ _) hr).bind ?_
    rintro ⟨⟨batch, refusal⟩, server₁⟩ tr u hr₁
    refine (changesNone_safe (store_changesNone _ _) hr₁).bind ?_
    rintro _ tr' v hr₂
    refine (sendImapChanges_sends hfolder hr₂).bind ?_
    rintro ⟨reader, sent'⟩ tr'' w hr₃
    cases refusal with
    | some refusal => exact .done ⟨sent', hr₃⟩
    | none => exact ih hr₃

end Send

/-! ### The cycle -/

section Walk

variable {listed : List ListedMessage} {h : History S} {s u : S.World × Tables}

/-- No command changed a flag yet. -/
structure Unsent (h : History S) (s : S.World × Tables) : Prop where
  /-- The store's shape. -/
  shape : Shape s.2
  /-- What was asked. -/
  none : ∀ e ∈ h, ¬ChangesFlags e.op

/-- Before any command the cycle remembers nothing sent. -/
theorem Unsent.remembers (hu : Unsent h s) (hg : listed ≠ [] → GivenBy rule folder listed h) :
    Remembers rule folder listed [] h s := by
  refine ⟨hu.shape, hg, fun identity message flag _ => ?_, fun e he uids flag value hr =>
    hu.none e he ⟨_, _, _, hr.changesFlags⟩⟩
  refine (List.findSome?_eq_none_iff.mpr fun e he => ?_).symm
  exact sentValue_eq_none (hu.none e (List.mem_reverse.mp he)) message.uid flag

/-- The parts before the first sending step. -/
theorem unsent_safe {α : Type} {p : ImapCycle α} (hp : ChangesNone p) (hu : Unsent h s) :
    Safe (surroundings S) (Sends rule folder) h s p fun _ h' u => Unsent h' u := by
  have hsends : ∀ {h : History S} {s : S.World × Tables} {e : Happened S}, Unsent h s →
      ¬ChangesFlags e.op → Sends rule folder h e :=
    fun {_ _ _} hu he =>
      have hr : Remembers rule folder [] [] _ _ := hu.remembers fun hne => absurd rfl hne
      hr.sends he
  refine Safe.asks hp (fun _ _ _ hu hm => ⟨(moved (.single hm)).2.2.shape hu.shape, hu.none⟩)
    (fun h s o a t hu ho ha => ⟨hsends hu ho, answered_shape hu.shape ha, fun e he => ?_⟩) hu
  rcases List.mem_append.mp he with he | he
  · exact hu.none e he
  · cases List.mem_singleton.mp he
    exact ho

/-- **What every event of a cycle keeps to.** -/
theorem synchronizeImapFolder_sends (rules : ContentRules) (rule : IdentityRule) (recentLimit : ℤ)
    (batches : BatchWriter) (hs : Shape s.2) :
    Safe (surroundings S) (Sends rule batches.folder) [] s
    (synchronizeImapFolder rules rule recentLimit batches) fun _ h _ =>
      ∀ e ∈ h, ∀ uids flag value, ¬Refused e uids flag value := by
  have hsteady : Steady (fun (_ : History S) t => Shape t.2) (Lawful rule batches.folder) :=
    shape_steady
  have hopening : Safe (surroundings S) (Lawful rule batches.folder) [] s
      (ImapFolder.openFolder rule batches.folder.identity) _ :=
    openFolder_safe hs
  refine ((unsent_safe (openFolder_changesNone _ _)
    ⟨hs, fun _ he => absurd he List.not_mem_nil⟩).and hopening).bind ?_
  rintro server tr u ⟨hu, hn, hopened, hrule⟩
  rw [List.nil_append] at hu hn hopened ⊢
  refine ((unsent_safe (storeCall_changesNone _) hu).and
    (keeping_safe hsteady hopened.steady id id)).bind ?_
  rintro stored tr₁ u₁ ⟨hu₁, hcalled₁, hs₁⟩
  refine ((unsent_safe (storeCall_changesNone _) hu₁).and (keeping_safe hsteady hs₁ id id)).bind ?_
  rintro pending tr₂ u₂ ⟨hu₂, hcalled₂, hs₂⟩
  have hstarted := Started.of_called hn hopened hcalled₁ hs₁ hcalled₂ hs₂
  refine ((unsent_safe (runStatePass_changesNone _ _ _ _ _) hu₂).and
    (firstPass_safe rfl hrule hstarted)).bind ?_
  rintro ⟨first, server₁⟩ tr₃ u₃ ⟨hu₃, hcovered, -⟩
  have hgiven : first.listed ≠ [] →
      GivenBy rule batches.folder first.listed (tr ++ tr₁ ++ tr₂ ++ tr₃) := fun hne => by
    obtain ⟨h₁, answer, generic, hfirst, hgeneric, heq, -⟩ := hcovered.first hne
    exact ⟨h₁, answer, generic, hfirst, hgeneric, heq⟩
  refine (changesNone_safe (settleAll_changesNone _ _) (hu₃.remembers hgiven)).bind ?_
  rintro _ tr₄ u₄ hr₄
  refine (sendImapChanges_sends rfl hr₄).bind ?_
  rintro ⟨reader, sent⟩ tr₅ u₅ hr₅
  refine (fetchMissing_sends rfl hr₅).bind ?_
  rintro (refusal | ⟨server₂, sent'⟩) tr₆ u₆ ⟨sent'', hr₆⟩
  · exact .done hr₆.unrefused
  · dsimp only
    split
    · exact (changesNone_safe (secondPass_changesNone _ _ _ _) hr₆).mono fun _ _ _ hr =>
        hr.unrefused
    · exact .done hr₆.unrefused

end Walk

/-! ### A refusal is followed up -/

/-- The server refuses a command that changes a flag. -/
def Refuses : (o : CycleOp ImapCommand) → CycleAns ImapCommand.Reply o → Prop
  | .server (.uidStore ..), ⟨_, some (.no _)⟩ => True
  | .server (.uidStore ..), ⟨_, some (.bad _)⟩ => True
  | _, _ => False

theorem Refused.refuses {e : Happened S} {uids : List UInt32} {flag : MessageFlag} {value : Bool}
    (hr : Refused e uids flag value) : Refuses e.op e.ans := by
  obtain ⟨before, ⟨responses, ended⟩, after, status, rfl, hended⟩ := hr
  rcases hended with hended | hended
  · cases hended
    trivial
  · cases hended
    trivial

theorem ChangesNone.goesOn {α : Type} {p : ImapCycle α} (hp : ChangesNone p) :
    p.GoesOn Refuses := by
  refine .of_asks (fun o answer ho hr => ?_) hp
  rw [Refuses.eq_def] at hr
  split at hr
  · exact ho ⟨_, _, _, rfl⟩
  · exact ho ⟨_, _, _, rfl⟩
  · exact hr

/-- A refused command is not the last thing a command's part asks. -/
theorem sendCommand_goesOn (reader : MailboxReader) (sent : SentChanges) (batches : BatchWriter)
    (flag : MessageFlag) (wanted : Bool) (messages : List (String × UInt32)) :
    (sendCommand reader sent batches flag wanted messages).GoesOn Refuses := by
  rw [sendCommand, readerStep, MailboxReader.storeFlags]
  simp only [bind_eq, mapFail_bind, bind_assoc]
  refine GoesOn.bind (readerStep_changesNone (connected_reads reader)).goesOn fun reader₁ => ?_
  rintro ⟨responses, ended⟩
  have hdropped : ∀ error : ImapError,
      ((batches.dropPending (messages.map Prod.fst) flag wanted).bind fun _ =>
      (.fail (.ofImap error) : ImapCycle (MailboxReader × SentChanges))).GoesOn Refuses :=
    fun error => GoesOn.bind (storeCall_changesNone _).goesOn fun _ => trivial
  cases ended with
  | none =>
    refine ⟨False.elim, ?_⟩
    show GoesOn Refuses ((readerStep (reader₁.fetchFlags (messages.map Prod.snd))).bind _)
    refine GoesOn.bind (readerStep_changesNone (fetchListing_reads reader₁ _ _)).goesOn
      fun reading => ?_
    split
    · trivial
    · exact GoesOn.bind (storeCall_changesNone _).goesOn fun _ => trivial
  | some error =>
    cases error with
    | no status => exact ⟨fun _ => ⟨_, _, rfl⟩, hdropped _⟩
    | bad status => exact ⟨fun _ => ⟨_, _, rfl⟩, hdropped _⟩
    | bye status => exact ⟨False.elim, trivial⟩
    | timedOut => exact ⟨False.elim, trivial⟩
    | unparsable => exact ⟨False.elim, trivial⟩
    | broken => exact ⟨False.elim, trivial⟩

theorem sendImapChanges_goesOn (reader : MailboxReader) (listed : List ListedMessage)
    (sent : SentChanges) (batches : BatchWriter) :
    (sendImapChanges reader listed sent batches).GoesOn Refuses := by
  refine GoesOn.bind (storeCall_changesNone _).goesOn fun pending => ?_
  generalize commandsToSend listed sent pending = commands
  induction commands generalizing reader sent with
  | nil => trivial
  | cons c commands ih => exact (sendCommand_goesOn _ _ _ _ _ _).bind fun _ => ih _ _

theorem fetchMissing_goesOn (rules : ContentRules) (recentLimit : ℤ) (batches : BatchWriter)
    (listed : List ListedMessage) (chunks : List (List ListedMessage)) (server : ImapFolder)
    (sent : SentChanges) :
    (fetchMissing rules recentLimit batches listed chunks server sent).GoesOn Refuses := by
  induction chunks generalizing server sent with
  | nil => trivial
  | cons chunk rest ih =>
    refine GoesOn.bind (fetchArrivals_changesNone _ _ _ _ _).goesOn ?_
    rintro ⟨⟨batch, refusal⟩, server₁⟩
    refine GoesOn.bind (store_changesNone _ _).goesOn fun _ => (sendImapChanges_goesOn _ _ _ _).bind
      fun _ => ?_
    cases refusal with
    | some refusal => trivial
    | none => exact ih _ _

theorem synchronizeImapFolder_goesOn (rules : ContentRules) (rule : IdentityRule) (recentLimit : ℤ)
    (batches : BatchWriter) :
    (synchronizeImapFolder rules rule recentLimit batches).GoesOn Refuses := by
  refine GoesOn.bind (openFolder_changesNone _ _).goesOn fun server => ?_
  refine GoesOn.bind (storeCall_changesNone _).goesOn fun stored => ?_
  refine GoesOn.bind (storeCall_changesNone _).goesOn fun pending => ?_
  refine GoesOn.bind (runStatePass_changesNone _ _ _ _ _).goesOn fun first => ?_
  refine GoesOn.bind (settleAll_changesNone _ _).goesOn fun _ => ?_
  refine (sendImapChanges_goesOn _ _ _ _).bind fun sent => ?_
  refine (fetchMissing_goesOn _ _ _ _ _ _ _).bind fun fetched => ?_
  cases fetched with
  | inl => trivial
  | inr fetched =>
    dsimp only
    split
    · exact (secondPass_changesNone _ _ _ _).goesOn
    · trivial

/-! ### Runs -/

/-- **What an IMAP cycle sends**: in every run of a cycle, from every stored folder, whatever
the server answers and the user wishes meanwhile, a command names at most a hundred messages
by the UIDs the first listing gave, each with a wish read at the start of its sending step and
another value than the last one sent for it; and after a refused command exactly its
messages' wishes for its value end, nothing more is asked, and the cycle fails. -/
theorem sent_changes (rules : ContentRules) (rule : IdentityRule) (recentLimit : ℤ)
    (batches : BatchWriter) (calls : List (StoreCall × Circumstances)) (w : S.World)
    {tr : History S} {r : Outcome CycleEnd LoadResult} {u : S.World × Tables}
    (hrun : Run (surroundings S) (synchronizeImapFolder rules rule recentLimit batches)
      (w, Store.run .empty calls) tr r u) :
    Every (SendsWishes rule batches.folder) tr ∧
      ∀ pre g post uids flag value, tr = pre ++ g :: post → Refused g uids flag value →
        post = [] ∧ r = .cut ∨
          ∃ e, post = [e] ∧ EndsRefused rule batches.folder (pre ++ [g]) e uids flag value ∧
            (r = .cut ∨ ∃ failure, r = .failed failure) := by
  obtain ⟨hevery, hreturned⟩ :=
    synchronizeImapFolder_sends rules rule recentLimit batches (run_shape shape_empty calls)
    tr r u hrun
  refine ⟨fun pre e post heq => (hevery pre e post heq).wishes, ?_⟩
  rintro pre g post uids flag value rfl hrefused
  cases post with
  | nil =>
    exact .inl ⟨rfl, hrun.cut_of_goesOn (synchronizeImapFolder_goesOn _ _ _ _) hrefused.refuses⟩
  | cons e post =>
    have hnext := (hevery (pre ++ [g]) e post (by simp)).refused pre g [] uids flag value
      (by simp) hrefused
    cases post with
    | nil =>
      refine .inr ⟨e, rfl, hnext.2, ?_⟩
      cases r with
      | returned result => exact absurd hrefused (hreturned result rfl g (by simp) uids flag value)
      | failed failure => exact .inr ⟨failure, rfl⟩
      | cut => exact .inl rfl
    | cons e' post =>
      have hlater := (hevery (pre ++ [g, e]) e' post (by simp)).refused pre g [e] uids flag value
        (by simp) hrefused
      cases hlater.1

/-- A mailbox of one read message, whose server refuses to change its flags. -/
def refusing : (command : ImapCommand) → command.Reply
  | .uidStore .. => ⟨[], some (.no ⟨none, "no"⟩)⟩
  | c => answering ⟨some 1, some ⟨true, false⟩, none, none, [], none⟩ c

/-- The cycle of the inbox against it, while the user wants the message unread. -/
def refusedRun :
    History (anyServer ImapCommand.Reply) × Outcome CycleEnd LoadResult × (Unit × Tables) :=
  exec (scripted refusing) (synchronizeImapFolder noContent .generic 0 ⟨inbox⟩)
    ((), Store.run .empty wantingUnread)

/-- The event changes a flag of message 1. -/
def unreadsFirst (e : Happened (anyServer ImapCommand.Reply)) : Bool :=
  match e.op with
  | .server (.uidStore uids flag value) => uids = [1] ∧ flag = .seen ∧ value = false
  | _ => false

theorem sent_changes_refused :
    refusedRun.1.any unreadsFirst = true ∧ Every (SendsWishes .generic inbox) refusedRun.1 ∧
      ∀ pre g post uids flag value, refusedRun.1 = pre ++ g :: post → Refused g uids flag value →
        post = [] ∧ refusedRun.2.1 = .cut ∨
          ∃ e, post = [e] ∧ EndsRefused .generic inbox (pre ++ [g]) e uids flag value ∧
            (refusedRun.2.1 = .cut ∨ ∃ failure, refusedRun.2.1 = .failed failure) :=
  ⟨by decide, sent_changes noContent .generic 0 ⟨inbox⟩ wantingUnread ()
    (run_scripted refusing _ _)⟩

end Mailbag.Cycle
