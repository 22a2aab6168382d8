import Mailbag.Graph.Protocol
import Mailbag.Imap.Protocol
import Mailbag.Interaction.Run
import Mailbag.Store.Frames

/-!
# A cycle's surroundings, and its access to the store

A cycle is a program that asks operations of two kinds (`CycleOp`): calls of the store,
and commands to its server. `BatchWriter` is its access to its folder in the store; a
call that fails, or finds the load cancelled, ends the cycle with its result.

## The surroundings

One load runs at a time, so while a cycle runs only the window writes to the store, and
of the mail it changes nothing but the user's wishes (`Window`). The store answers a call
by carrying it out, in any circumstances. How the server answers is a parameter
(`Server`): most of what is proved of a cycle is proved for the server that answers
anything (`anyServer`).
-/

namespace Mailbag.Cycle

open Graph Imap Interaction Relation Store

/-- Why a load delivered no mail, at the step where it stopped. -/
inductive LoadFailure where
  /-- The IMAP connection, the sign-in or the transfer failed. -/
  | imap (error : ImapError)
  /-- The Microsoft Graph request failed or was refused. -/
  | microsoftGraph (error : GraphError)
  /-- The mail service refused to change a message's read state or star. -/
  | microsoftGraphChangeRefused (error : GraphError)
  deriving DecidableEq

/-- How a load ended. -/
inductive LoadResult where
  /-- The folder's messages are stored; why some are missing. -/
  | stored (incomplete : Option IncompleteList)
  /-- The store failed. -/
  | failed (failure : Failure)
  /-- The load was cancelled. -/
  | cancelled
  deriving DecidableEq

/-- Why a cycle stopped early. -/
inductive CycleEnd where
  /-- The server failed it. -/
  | failed (failure : LoadFailure)
  /-- The store failed or found the load cancelled, which already is the load's result. -/
  | stopped (result : LoadResult)
  deriving DecidableEq

/-- What a cycle asks: a call of the store, or a command to its server. -/
inductive CycleOp (Command : Type) where
  /-- A call of the store. -/
  | store (op : StoreCall)
  /-- A command to the server. -/
  | server (command : Command)
  deriving DecidableEq

variable {Command : Type} {Reply : Command → Type} {α : Type}

/-- What it is answered. -/
abbrev CycleAns (Reply : Command → Type) : CycleOp Command → Type
  | .store op => Except Failure op.Result
  | .server command => Reply command

/-- A cycle, or a part of it. -/
abbrev CycleProgram (Reply : Command → Type) (α : Type) : Type :=
  Program (CycleOp Command) (CycleAns Reply) CycleEnd α

/-- Ask the store; a call that fails ends the cycle. -/
def storeCall (op : StoreCall) : CycleProgram Reply op.Result :=
  (Program.request (.store op)).bind fun (answer : Except Failure op.Result) =>
    Program.ofExcept (answer.mapError fun failure => .stopped (.failed failure))

/-! ### A cycle's access to its folder in the store -/

/-- A cycle's access to its folder in the store. -/
structure BatchWriter where
  /-- The folder. -/
  folder : FolderRef

namespace BatchWriter

variable (batches : BatchWriter)

/-- What the cycle starts from: the folder's state and stored messages. -/
def readFolderSync : CycleProgram Reply FolderSync := storeCall (.readFolderSync batches.folder)

/-- Which of `identities` another folder of the account holds. -/
def identitiesInOtherFolders (identities : List String) : CycleProgram Reply (List String) :=
  storeCall (.identitiesInOtherFolders batches.folder identities)

/-- Which of `identities` the account already holds. -/
def storedIdentities (identities : List String) : CycleProgram Reply (List String) :=
  storeCall (.storedIdentities batches.folder.account identities)

/-- The folder's pending changes. -/
def pendingChanges : CycleProgram Reply (List PendingChange) :=
  storeCall (.readPendingChanges batches.folder)

/-- The server has `value` of `flag` for the messages. -/
def settle (identities : List String) (flag : MessageFlag) (value : Bool) :
    CycleProgram Reply Unit :=
  storeCall (.settleFlags batches.folder.account identities flag value)

/-- The server refused `refused` of `flag` for the messages. -/
def dropPending (identities : List String) (flag : MessageFlag) (refused : Bool) :
    CycleProgram Reply Unit :=
  storeCall (.dropPendingFlags batches.folder.account identities flag refused)

/-- Store one batch whole; one that changes nothing is not written. -/
def store (batch : FolderBatch) : CycleProgram Reply Unit :=
  if batch = FolderBatch.default then .done ()
  else
    (storeCall (.storeBatch batches.folder batch)).bind fun
      | .stored => .done ()
      | .loadCancelled => .fail (.stopped .cancelled)

/-- End the cycle as stored. -/
def finish (_ : BatchWriter) (incomplete : Option IncompleteList) : LoadResult := .stored incomplete

end BatchWriter

/-! ### The surroundings -/

/-- What the window does to the store while a cycle runs: it writes a wish of the user. -/
def Window (t u : Tables) : Prop :=
  ∃ account identity flag wanted met, u =
    (call t (.writePendingFlag account identity flag wanted) met).2

/-- A server: its world, what others do to it, and how it answers a command. -/
structure Server (Reply : Command → Type) where
  /-- What the server is at a moment. -/
  World : Type
  /-- What others do to it. -/
  step : World → World → Prop
  /-- How it may answer a command, and what the command does to it. -/
  answer : World → (command : Command) → Reply command → World → Prop

/-- The server of which nothing is assumed: it answers anything. -/
def anyServer (Reply : Command → Type) : Server Reply :=
  ⟨Unit, fun _ _ => False, fun _ _ _ _ => True⟩

/-- Answer a command by `script` and carry out a call of the store. -/
def scripted (script : (command : Command) → Reply command) (s : Unit × Tables) :
    (o : CycleOp Command) → CycleAns Reply o × (Unit × Tables)
  | .store op => ((call s.2 op ⟨false, none⟩).1, (s.1, (call s.2 op ⟨false, none⟩).2))
  | .server command => (script command, s)

/-- What others do between two operations of a cycle: to the server, or to the store. -/
def moves (S : Server Reply) (s u : S.World × Tables) : Prop :=
  S.step s.1 u.1 ∧ u.2 = s.2 ∨ u.1 = s.1 ∧ Window s.2 u.2

/-- The store answers by carrying the call out, in some circumstances; the server answers
as it may, and the store is as before. -/
def answered (S : Server Reply) (s : S.World × Tables) :
    (o : CycleOp Command) → CycleAns Reply o → S.World × Tables → Prop
  | .store op, answer, u => u.1 = s.1 ∧ ∃ met, (answer, u.2) = call s.2 op met
  | .server command, answer, u => S.answer s.1 command answer u.1 ∧ u.2 = s.2

/-- A cycle's surroundings. -/
def surroundings (S : Server Reply) :
    Surroundings (CycleOp Command) (CycleAns Reply) (S.World × Tables) where
  move := moves S
  answer := answered S

theorem run_scripted {ε : Type} (script : (command : Command) → Reply command)
    (p : Program (CycleOp Command) (CycleAns Reply) ε α) (t : Tables) :
    Run (surroundings (anyServer Reply)) p ((), t) (exec (scripted script) p ((), t)).1
      (exec (scripted script) p ((), t)).2.1 (exec (scripted script) p ((), t)).2.2 := by
  refine run_exec (fun s o => ?_) p ((), t)
  cases o with
  | store op => exact ⟨rfl, ⟨false, none⟩, rfl⟩
  | server command => exact ⟨trivial, rfl⟩

/-- What happened so far. -/
abbrev History (S : Server Reply) : Type :=
  List (Event (CycleOp Command) (CycleAns Reply) (S.World × Tables))

/-- Something that happened. -/
abbrev Happened (S : Server Reply) : Type :=
  Event (CycleOp Command) (CycleAns Reply) (S.World × Tables)

variable {S : Server Reply}

theorem window_kept {t u : Tables} (h : Window t u) : Kept t u := by
  obtain ⟨account, identity, flag, wanted, met, rfl⟩ := h
  exact call_kept id id t met

/-- The others leave every message in its folders, with the server's flags. -/
theorem moved {s u : S.World × Tables} (h : ReflTransGen (surroundings S).move s u) :
    ReflTransGen S.step s.1 u.1 ∧ ReflTransGen Window s.2 u.2 ∧ Kept s.2 u.2 := by
  induction h with
  | refl => exact ⟨.refl, .refl, .refl _⟩
  | tail _ hm ih =>
    obtain ⟨hworld, hwindow, hkept⟩ := ih
    rcases hm with ⟨hstep, htables⟩ | ⟨hsame, hwrite⟩
    · exact ⟨hworld.tail hstep, htables ▸ hwindow, htables ▸ hkept⟩
    · exact ⟨hsame ▸ hworld, hwindow.tail hwrite, hkept.trans (window_kept hwrite)⟩

theorem shape_answered {s u : S.World × Tables} {o : CycleOp Command} {answer : CycleAns Reply o}
    (ha : answered S s o answer u) (hs : Shape s.2) : Shape u.2 := by
  cases o with
  | store op =>
    obtain ⟨-, met, hcall⟩ := ha
    rw [show u.2 = (call s.2 op met).2 from congrArg Prod.snd hcall]
    exact call_shape hs op met
  | server c =>
    rw [show u.2 = s.2 from ha.2]
    exact hs

/-- A run of a cycle keeps the store's shape. -/
theorem shape_of_run {ε : Type} {p : Program (CycleOp Command) (CycleAns Reply) ε α}
    {s u : S.World × Tables} {tr : History S} {r : Outcome ε α}
    (hrun : Run (surroundings S) p s tr r u) (hs : Shape s.2) :
    Shape u.2 ∧ ∀ e ∈ tr, Shape e.before.2 :=
  hrun.keeps (I := fun v => Shape v.2) (fun _ _ hv hm => (moved (.single hm)).2.2.shape hv)
    (fun e he => shape_answered (hrun.answered e he)) hs

/-- What leads a server from one moment to the next: others, or a command. -/
def Server.Leads (S : Server Reply) (w w' : S.World) : Prop :=
  S.step w w' ∨ ∃ command answer, S.answer w command answer w'

/-- An event that happened between two moments, answered as the surroundings may. -/
structure Between (s u : S.World × Tables) (e : Happened S) : Prop where
  /-- It was answered so. -/
  real : answered S e.before e.op e.ans e.after
  /-- It came after the first moment. -/
  early : ReflTransGen S.Leads s.1 e.before.1
  /-- It came before the second. -/
  late : ReflTransGen S.Leads e.after.1 u.1

/-- A command to the server, answered as it may. -/
structure ByServer (e : Happened S) : Prop where
  /-- It is a command. -/
  command : ∃ c, e.op = .server c
  /-- It was answered so. -/
  real : answered S e.before e.op e.ans e.after

/-- A call of the store that neither moves a message nor settles a flag. -/
structure ByKeeping (e : Happened S) : Prop where
  /-- It is such a call. -/
  keeps : ∃ op, e.op = .store op ∧ ¬op.Moves ∧ ¬op.Settles
  /-- It was answered so. -/
  real : answered S e.before e.op e.ans e.after

/-- `J` stays true while others move and the cycle gives commands and makes calls that keep
what the folders hold, and these satisfy the guarantee `G`. -/
structure Steady (J : History S → S.World × Tables → Prop)
    (G : History S → Happened S → Prop) : Prop where
  /-- While others move. -/
  moves : ∀ h s u, J h s → moves S s u → J h u
  /-- Through a command. -/
  server : ∀ h e, ByServer e → J h e.before → G h e ∧ J (h ++ [e]) e.after
  /-- Through a call that keeps what the folders hold. -/
  keeping : ∀ h e, ByKeeping e → J h e.before → G h e ∧ J (h ++ [e]) e.after

theorem Steady.moved {J : History S → S.World × Tables → Prop} {G : History S → Happened S → Prop}
    (hJ : Steady J G) {h : History S} {s u : S.World × Tables} (hs : J h s)
    (hm : ReflTransGen (surroundings S).move s u) : J h u := by
  induction hm with
  | refl => exact hs
  | tail _ hstep ih => exact hJ.moves _ _ _ ih hstep

/-- A property of the tables that others and readings keep, whatever happened. -/
theorem steady_of_kept {J : History S → S.World × Tables → Prop} {G : History S → Happened S → Prop}
    (hserver : ∀ h e, ByServer e → G h e) (hkeeping : ∀ h e, ByKeeping e → G h e)
    (hJ : ∀ h s u, J h s → Kept s.2 u.2 → ∀ tr, J (h ++ tr) u) : Steady J G := by
  refine ⟨fun h s u hs hm => ?_, fun h e he hs => ⟨hserver h e he, ?_⟩, fun h e he hs =>
    ⟨hkeeping h e he, ?_⟩⟩
  · have hu := hJ h s u hs (moved (.single hm)).2.2 []
    rwa [List.append_nil] at hu
  · obtain ⟨⟨c, hc⟩, hreal⟩ := he
    obtain ⟨before, op, ans, after⟩ := e
    cases hc
    exact hJ h before after hs (hreal.2 ▸ .refl _) _
  · obtain ⟨⟨op, hop, hmoves, hsettles⟩, hreal⟩ := he
    obtain ⟨before, op', ans, after⟩ := e
    cases hop
    obtain ⟨-, met, hcall⟩ := hreal
    refine hJ h before after hs ?_ _
    rw [show after.2 = (call before.2 op met).2 from congrArg Prod.snd hcall]
    exact call_kept hmoves hsettles _ met

/-- From one moment to another only events in `K` happened, and `J` stayed true. -/
structure Passes (J : History S → S.World × Tables → Prop) (K : Happened S → Prop)
    (h h' : History S) (s u : S.World × Tables) : Prop where
  /-- The events. -/
  past : ∃ tr, h' = h ++ tr ∧ ∀ e ∈ tr, K e ∧ Between s u e
  /-- The server moved on. -/
  world : ReflTransGen S.Leads s.1 u.1
  /-- What stayed true. -/
  steady : J h' u

section Passes

variable {J J' : History S → S.World × Tables → Prop} {K K' : Happened S → Prop}
  {h h' h'' : History S} {s u v : S.World × Tables}

theorem leads_of_steps {w w' : S.World} (hsteps : ReflTransGen S.step w w') :
    ReflTransGen S.Leads w w' := by
  induction hsteps with
  | refl => exact .refl
  | tail _ hstep ih => exact ih.tail (.inl hstep)

theorem Passes.refl (hs : J h s) : Passes J K h h s s :=
  ⟨⟨[], by simp, fun _ he => absurd he List.not_mem_nil⟩, .refl, hs⟩

theorem Between.widen {s' u' : S.World × Tables} {e : Happened S} (he : Between s u e)
    (hs : ReflTransGen S.Leads s'.1 s.1) (hu : ReflTransGen S.Leads u.1 u'.1) : Between s' u' e :=
  ⟨he.real, hs.trans he.early, he.late.trans hu⟩

theorem Passes.trans (h₁ : Passes J K h h' s u) (h₂ : Passes J' K h' h'' u v) :
    Passes J' K h h'' s v := by
  obtain ⟨⟨tr₁, rfl, hk₁⟩, hw₁, -⟩ := h₁
  obtain ⟨⟨tr₂, rfl, hk₂⟩, hw₂, hJ⟩ := h₂
  refine ⟨⟨tr₁ ++ tr₂, by simp, fun e he => ?_⟩, hw₁.trans hw₂, hJ⟩
  rcases List.mem_append.mp he with he | he
  · exact ⟨(hk₁ e he).1, (hk₁ e he).2.widen .refl hw₂⟩
  · exact ⟨(hk₂ e he).1, (hk₂ e he).2.widen hw₁ .refl⟩

theorem Passes.mono (hK : ∀ e, K e → K' e) (hp : Passes J K h h' s u) : Passes J K' h h' s u := by
  obtain ⟨⟨tr, rfl, hk⟩, hw, hJ⟩ := hp
  exact ⟨⟨tr, rfl, fun e he => ⟨hK e (hk e he).1, (hk e he).2⟩⟩, hw, hJ⟩

theorem Passes.events {tr : History S} (hp : Passes J K h (h ++ tr) s u) : ∀ e ∈ tr, K e := by
  obtain ⟨⟨tr', htr', hk⟩, -⟩ := hp
  rw [List.append_cancel_left htr']
  exact fun e he => (hk e he).1

/-- Between two moments something happened that satisfies `P`. -/
def Occurred (P : Happened S → Prop) (h h' : History S) (s u : S.World × Tables) : Prop :=
  ∃ tr, h' = h ++ tr ∧ ∃ e ∈ tr, P e ∧ Between s u e

theorem Occurred.exists_mem {P : Happened S → Prop} (ho : Occurred P h h' s u) : ∃ e ∈ h', P e := by
  obtain ⟨tr, rfl, e, he, hP, -⟩ := ho
  exact ⟨e, List.mem_append_right _ he, hP⟩

/-- What occurred by some moment occurred by every later one. -/
theorem Occurred.later {P : Happened S → Prop} (ho : Occurred P h h' s u)
    (hp : Passes J K h' h'' u v) : Occurred P h h'' s v := by
  obtain ⟨tr, rfl, e, he, hP, hb⟩ := ho
  obtain ⟨tr', rfl, -⟩ := hp.past
  exact ⟨tr ++ tr', List.append_assoc .., e, List.mem_append_left _ he, hP, hb.widen .refl hp.world⟩

/-- What occurred after some moment occurred after every earlier one. -/
theorem Occurred.earlier {P : Happened S → Prop} (ho : Occurred P h' h'' u v)
    (hp : Passes J K h h' s u) : Occurred P h h'' s v := by
  obtain ⟨tr', rfl, e, he, hP, hb⟩ := ho
  obtain ⟨tr, rfl, -⟩ := hp.past
  exact ⟨tr ++ tr', List.append_assoc .., e, List.mem_append_right _ he, hP,
    hb.widen hp.world .refl⟩

end Passes

/-! ### Rules -/

section Rules

variable {J : History S → S.World × Tables → Prop} {G : History S → Happened S → Prop}
  {h : History S} {s : S.World × Tables}

/-- A call of the store that answered a result. -/
structure Called (J : History S → S.World × Tables → Prop) (op : StoreCall) (result : op.Result)
    (h h' : History S) (s u : S.World × Tables) : Prop where
  /-- The moment of the call. -/
  moment : ∃ s' met, ReflTransGen S.step s.1 s'.1 ∧ Kept s.2 s'.2 ∧ J h s' ∧ u.1 = s'.1 ∧
    call s'.2 op met = (.ok result, u.2) ∧ h' = h ++ [⟨s', .store op, .ok result, u⟩]

/-- A call of the store, in any circumstances. -/
theorem storeCall_safe (hJ : Steady J G) (hs : J h s) {op : StoreCall}
    (hcall : ∀ e : Happened S, e.op = .store op → answered S e.before e.op e.ans e.after →
      J h e.before → ReflTransGen S.step s.1 e.before.1 → Kept s.2 e.before.2 → G h e) :
    Safe (surroundings S) G h s (storeCall op) fun result h' u => Called J op result h h' s u := by
  refine Safe.bind (R := fun answer h' u => ∀ result, answer = .ok result →
    Called J op result h h' s u) (.request ?_) ?_
  · intro s' answer u hm ha
    have hmoved := moved hm
    have hs' := hJ.moved hs hm
    obtain ⟨hsame, met, hmet⟩ := id ha
    refine ⟨hcall _ rfl ha hs' hmoved.1 hmoved.2.2, ?_⟩
    rintro result rfl
    exact ⟨s', met, hmoved.1, hmoved.2.2, hs', hsame, hmet.symm, rfl⟩
  · intro answer tr t hq
    refine Safe.ofExcept fun result hok => hq result ?_
    cases answer with
    | error failure => cases hok
    | ok result' =>
      cases hok
      rfl

/-- A call that keeps what the folders hold. -/
theorem keeping_safe (hJ : Steady J G) (hs : J h s) {op : StoreCall} (hmoves : ¬op.Moves)
    (hsettles : ¬op.Settles) :
    Safe (surroundings S) G h s (storeCall op) fun result h' u => Called J op result h h' s u ∧
      J h' u := by
  intro tr r u hr
  have hsafe : Safe (surroundings S) G h s (storeCall op) fun result h' u =>
      Called J op result h h' s u :=
    storeCall_safe hJ hs fun e hop hreal hbefore _ _ =>
      (hJ.keeping h e ⟨⟨op, hop, hmoves, hsettles⟩, hreal⟩ hbefore).1
  obtain ⟨hg, hq⟩ := hsafe tr r u hr
  refine ⟨hg, fun result hresult => ⟨hq result hresult, ?_⟩⟩
  obtain ⟨s', met, hsteps, hkept, hs', hsame, hcall, heq⟩ := (hq result hresult).moment
  rw [heq]
  exact (hJ.keeping h ⟨s', .store op, .ok result, u⟩ ⟨⟨op, rfl, hmoves, hsettles⟩, hsame, met,
    hcall.symm⟩ hs').2

/-- The storing of a batch: nothing is asked for one that changes nothing, and otherwise
the cycle goes on only when the batch was stored. -/
theorem store_safe (hJ : Steady J G) (hs : J h s) {batches : BatchWriter} {batch : FolderBatch}
    (hcall : ∀ e : Happened S, e.op = .store (.storeBatch batches.folder batch) →
      answered S e.before e.op e.ans e.after → J h e.before → ReflTransGen S.step s.1 e.before.1 →
        Kept s.2 e.before.2 → G h e) :
    Safe (surroundings S) G h s (batches.store batch) fun _ h' u =>
      (batch = .default ∧ h' = h ∧ u = s) ∨
        Called J (.storeBatch batches.folder batch) .stored h h' s u := by
  rw [BatchWriter.store]
  split
  · rename_i hbatch
    exact .done (.inl ⟨hbatch, rfl, rfl⟩)
  · refine (storeCall_safe hJ hs hcall).bind ?_
    intro written tr t hq
    cases written with
    | stored => exact .done (.inr hq)
    | loadCancelled => exact .fail

theorem Called.passes {J' : History S → S.World × Tables → Prop} {op : StoreCall}
    {result : op.Result} {h' : History S} {u : S.World × Tables} {K : Happened S → Prop}
    (hcalled : Called J op result h h' s u) (hu : J' h' u)
    (hK : ∀ e : Happened S, e.op = .store op → K e) : Passes J' K h h' s u := by
  obtain ⟨s', met, hsteps, hkept, hs', hsame, hcall, rfl⟩ := hcalled.moment
  have hworld : ReflTransGen S.Leads s.1 s'.1 := leads_of_steps hsteps
  refine ⟨⟨_, rfl, fun e he => ?_⟩, hsame ▸ hworld, hu⟩
  cases List.mem_singleton.mp he
  exact ⟨hK _ rfl, ⟨hsame, met, hcall.symm⟩, hworld, .refl⟩

/-- A call that keeps what the folders hold. -/
theorem Called.kept {op : StoreCall} {result : op.Result} {h' : History S} {u : S.World × Tables}
    (hcalled : Called J op result h h' s u) (hmoves : ¬op.Moves) (hsettles : ¬op.Settles) :
    Kept s.2 u.2 := by
  obtain ⟨s', met, -, hkept, -, -, hcall, -⟩ := hcalled.moment
  have := call_kept hmoves hsettles s'.2 met
  rw [hcall] at this
  exact hkept.trans this

end Rules

end Mailbag.Cycle
