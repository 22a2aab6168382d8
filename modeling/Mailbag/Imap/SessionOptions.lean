import Mailbag.Imap.SessionSignIn

/-!
# Between the sign-in and the mailbox

COMPRESS, ENABLE and ID, each given when the server announced it or the caller asks for it, and none
of them a reason to fail when the server refuses it.

## What is proved

* `runOptional_safe` — a command that the server may refuse is completed, or refused, or the
  connection broke.
* `compressSession_safe` — the compression is put in place exactly when the server agreed.
* `prepareSession_safe`, `signInSession_safe` — a prepared session is what the server said.
-/

namespace Mailbag.Imap

open Interaction

variable {σ : Type}

attribute [local simp] SessionOp.isPlaintext SessionOp.securesFirst SessionOp.sendsCredentials
  SessionOp.needsSignIn SessionOp.readsMailboxes

section Rules

variable {E : Surroundings SessionOp SessionAns σ} {account : ImapAccount} {options : OpenOptions}
  {openedFor : ImapStep} {rounds : ℕ} {h : SessionLog σ} {s : σ} {notices : ServerNotices}

/-- The command given by an operation. -/
def SessionOp.command : SessionOp → Option String
  | .runCommand text => some text
  | _ => none

/-- The commands given, in order. -/
def commandsGiven (h : SessionLog σ) : List String := h.filterMap fun e => e.op.command

/-- Compressed from here on. -/
def compressed : (o : SessionOp) → SessionAns o → Bool
  | .startCompression, () => true
  | _, _ => false

/-- The commands for what the server announced and the caller asks for. -/
def optionCommands (options : OpenOptions) (capabilities : Capabilities) : List String :=
  (if capabilities.hasStr "COMPRESS=DEFLATE" then ["COMPRESS DEFLATE"] else []) ++
    (if capabilities.hasStr "UTF8=ACCEPT" ||
      capabilities.hasStr "UTF8=ONLY" then ["ENABLE UTF8=ACCEPT"] else []) ++
    (options.clientIdentity.map identification).toList

/-- A session prepared so far by the commands given. -/
structure Preparing (capabilities : Capabilities) (given : List String) (h : SessionLog σ)
    (notices : ServerNotices) : Prop
    extends SignedIn h notices where
  announced : AnnouncedAfter Imap.signedIn h capabilities
  given : commandsGiven h = given
  compressed : Seen compressed h ↔ Seen (completed "COMPRESS DEFLATE") h

/-- **A prepared session** is what the server said after the sign-in. -/
structure Prepared (options : OpenOptions) (session : SignedInSession) (h : SessionLog σ) :
    Prop where
  /-- The server announced its capabilities once signed in. -/
  announced : AnnouncedAfter signedIn h session.capabilities
  /-- Each option announced, and no other, was asked for. -/
  given : commandsGiven h = optionCommands options session.capabilities
  /-- The connection is compressed when the server agreed. -/
  compressed : Seen compressed h ↔ Seen (completed "COMPRESS DEFLATE") h
  /-- The names are UTF-8 when the server agreed. -/
  utf8Names : session.utf8Names ↔ Seen (completed "ENABLE UTF8=ACCEPT") h

theorem commandsGiven_concat {e : Event SessionOp SessionAns σ} :
    commandsGiven (h ++ [e]) = commandsGiven h ++ e.op.command.toList := by
  cases hcommand : e.op.command <;> simp [commandsGiven, hcommand]

theorem mem_commandsGiven {text : String} (hseen : Seen (completed text) h) :
    text ∈ commandsGiven h := by
  obtain ⟨⟨s', o, a, t⟩, he, hcompleted⟩ := hseen
  refine List.mem_filterMap.mpr ⟨_, he, ?_⟩
  cases o <;> simp [completed] at hcompleted ⊢
  obtain ⟨_ | _, unsolicited⟩ := a <;> simp at hcompleted
  simp [SessionOp.command, hcompleted]

theorem commandsGiven_nil_of (hunprepared : NotAsked SessionOp.needsSignIn h) :
    commandsGiven h = [] := by
  refine List.filterMap_eq_nil_iff.mpr fun e he => ?_
  have hneeds := hunprepared e he
  generalize e.op = o at hneeds ⊢
  cases o <;> simp_all [SessionOp.command]

theorem identification_ne (identity : ClientIdentity) {text : String}
    (hhead : text.toList.head? ≠ some 'I') : identification identity ≠ text := by
  rintro rfl
  refine hhead ?_
  simp [identification]

variable (hfor : openedFor = .openMailbox ∨ openedFor = .listMailboxes)
include hfor

/-- The step that the session is opened for comes after the sign-in. -/
theorem reached_openedFor (hsigned : Seen signedIn h) : Reached openedFor h openedFor := by
  rcases hfor with rfl | rfl <;> exact ⟨rfl, hsigned⟩

/-- **A command that the server may refuse** is completed, or refused, or the connection broke. -/
theorem runOptional_safe {capabilities : Capabilities} {text : String}
    (hsigned : SignedIn h notices) (hannounced : AnnouncedAfter signedIn h capabilities)
    (hfits : CommandFits options capabilities text) :
    SafeOr E (Lawful account options) h s (runOptional text openedFor notices)
      (fun done h' _ => ∃ s' answer t, h' = h ++ [⟨s', .runCommand text, answer, t⟩] ∧
        (done.1 ↔ completed text (.runCommand text) answer) ∧ SignedIn h' done.2)
      (Fails account openedFor) := by
  have hlawful : ∀ s' a t, Lawful account options h ⟨s', .runCommand text, a, t⟩ := fun s' a t => by
    constructor <;> simp
    · exact hsigned.handshaken
    · exact hsigned.signedIn
    · exact ⟨hsigned.unread, capabilities, hannounced, hfits⟩
  refine .bind_request (fun _ _ _ _ => hlawful _ _ _) fun s₁ answer t₁ _ => ?_
  have hsigned₁ : SignedIn (h ++ [⟨s₁, .runCommand text, answer, t₁⟩])
      (notices.hear answer.unsolicited) := by
    refine ⟨seen_concat.mpr (.inl hsigned.handshaken), seen_concat.mpr (.inl hsigned.signedIn),
      notAsked_concat.mpr ⟨hsigned.unread, rfl⟩, ?_⟩
    rw [heardIn_concat]
    exact hsigned.hears.hear answer.unsolicited
  have hreached := reached_openedFor hfor hsigned₁.signedIn
  obtain ⟨result, unsolicited⟩ := answer
  refine bind_orFail (fun done hdone => .done ⟨s₁, _, t₁, rfl, ?_, hsigned₁⟩)
    fun failure hfails => ?_
  · rcases result with (_ | _ | _ | _ | _ | _) | _ <;> cases hdone <;> simp [completed]
  · rcases result with (_ | _ | _ | _ | _ | _) | _ <;> cases hfails <;>
      exact hsigned₁.hears.fails (.command rfl hreached rfl)

omit hfor in
theorem lawful_startCompression {s' t : σ} {a : Unit} {agreed : Event SessionOp SessionAns σ}
    (hsigned : SignedIn (h ++ [agreed]) notices)
    (hagreed : completed "COMPRESS DEFLATE" agreed.op agreed.ans) :
    Lawful account options (h ++ [agreed]) ⟨s', .startCompression, a, t⟩ := by
  have hsecured := hsigned.handshaken
  have hsignedIn := hsigned.signedIn
  constructor <;> simp at * <;> assumption

omit hfor in
theorem Preparing.given_one {capabilities : Capabilities} {given : List String} {text : String}
    {s' t : σ} {answer : Heard (Except SessionError Unit)} {notices' : ServerNotices}
    (hpreparing : Preparing capabilities given h notices)
    (hsigned : SignedIn (h ++ [⟨s', .runCommand text, answer, t⟩]) notices')
    (hother : text ≠ "COMPRESS DEFLATE") :
    Preparing capabilities (given ++ [text]) (h ++ [⟨s', .runCommand text, answer, t⟩])
      notices' where
  toSignedIn := hsigned
  announced := hpreparing.announced.concat
  given := by rw [commandsGiven_concat, hpreparing.given]; rfl
  compressed := by
    have hnot : completed "COMPRESS DEFLATE" (.runCommand text) answer = false := by
      obtain ⟨_ | _, unsolicited⟩ := answer <;> simp [completed, hother]
    simpa [Imap.compressed, hnot] using hpreparing.compressed

/-- **Compression** is put in place exactly when the server agreed. -/
theorem compressSession_safe {capabilities : Capabilities}
    (hpreparing : Preparing capabilities [] h notices)
    (hhas : capabilities.hasStr "COMPRESS=DEFLATE") :
    SafeOr E (Lawful account options) h s (compressSession openedFor notices)
      (fun notices h _ => Preparing capabilities ["COMPRESS DEFLATE"] h notices)
      (Fails account openedFor) := by
  refine .bind (runOptional_safe hfor hpreparing.toSignedIn hpreparing.announced (.inl ⟨rfl, hhas⟩))
    fun done tr t₁ hdone => ?_
  obtain ⟨s₁, answer, t₁, htr, hagreed, hsigned⟩ := hdone
  obtain rfl := List.append_cancel_left htr
  obtain ⟨agreed, notices₁⟩ := done
  have hgiven : commandsGiven (h ++ [⟨s₁, .runCommand "COMPRESS DEFLATE", answer, t₁⟩]) =
      ["COMPRESS DEFLATE"] := by
    rw [commandsGiven_concat, hpreparing.given]
    rfl
  have hnone : ¬Seen (completed "COMPRESS DEFLATE") h := fun hseen => by
    have hmem := mem_commandsGiven hseen
    rw [hpreparing.given] at hmem
    cases hmem
  have hplain : ¬Seen compressed h := fun hseen => hnone (hpreparing.compressed.mp hseen)
  cases agreed with
  | true =>
    refine .bind_request (fun _ _ _ _ => lawful_startCompression hsigned (hagreed.mp rfl))
      fun s₂ _ t₂ _ => .done ?_
    refine ⟨⟨?_, ?_, ?_, ?_⟩, hpreparing.announced.concat.concat, ?_, ?_⟩
    · exact seen_concat.mpr (.inl hsigned.handshaken)
    · exact seen_concat.mpr (.inl hsigned.signedIn)
    · exact notAsked_concat.mpr ⟨hsigned.unread, rfl⟩
    · rw [heardIn_concat]
      simpa [heard] using hsigned.hears
    · rw [commandsGiven_concat, hgiven]
      rfl
    · have hseen : Seen (completed "COMPRESS DEFLATE")
        (h ++ [⟨s₁, .runCommand "COMPRESS DEFLATE", answer, t₁⟩] ++
          [⟨s₂, .startCompression, (), t₂⟩]) := seen_concat.mpr
            (.inl (seen_concat.mpr (.inr (hagreed.mp rfl))))
      exact iff_of_true (seen_concat.mpr (.inr rfl)) hseen
  | false =>
    refine .done ⟨hsigned, hpreparing.announced.concat, hgiven, ?_⟩
    have hnot : ¬completed "COMPRESS DEFLATE" (.runCommand "COMPRESS DEFLATE") answer :=
      fun hyes => by cases hagreed.mpr hyes
    refine iff_of_false ?_ ?_
    · simpa [compressed] using hplain
    · simpa [hnone] using hnot

/-- What is asked for once signed in, in its order. -/
theorem prepareSession_safe (hsigned : SignedIn h notices)
    (hunprepared : NotAsked SessionOp.needsSignIn h) :
    SafeOr E (Lawful account options) h s (prepareSession options openedFor notices)
      (fun prepared h _ => SignedIn h prepared.2 ∧ Prepared options prepared.1 h)
      (Fails account openedFor) := by
  refine .bind_request (fun _ _ _ _ => lawful_secured hsigned.handshaken (.inr rfl))
    fun s₁ answer t₁ _ => ?_
  have hsigned₁ : SignedIn (h ++ [⟨s₁, .capability, answer, t₁⟩])
      (notices.hear answer.unsolicited).collect := by
    refine ⟨seen_concat.mpr (.inl hsigned.handshaken), seen_concat.mpr (.inl hsigned.signedIn),
      notAsked_concat.mpr ⟨hsigned.unread, rfl⟩, ?_⟩
    rw [heardIn_concat]
    exact (hsigned.hears.hear answer.unsolicited).collect
  have hunprepared₁ : NotAsked SessionOp.needsSignIn (h ++ [⟨s₁, .capability, answer, t₁⟩]) :=
    notAsked_concat.mpr ⟨hunprepared, rfl⟩
  have hgiven₁ := commandsGiven_nil_of hunprepared₁
  refine bind_orFail (fun capabilities hcapabilities => ?_) fun failure hfails => ?_
  · have hpreparing₁ : Preparing capabilities [] (h ++ [⟨s₁, .capability, answer, t₁⟩])
        (notices.hear answer.unsolicited).collect := by
      refine ⟨hsigned₁, announcedAfter_concat hsigned.signedIn
        (announcement_eq (mapError_eq_ok hcapabilities)), hgiven₁, ?_⟩
      refine iff_of_false (hunprepared₁.not_seen fun o a => ?_)
        (hunprepared₁.not_seen fun o a => ?_)
      · cases o <;> simp [compressed]
      · cases o <;> simp [completed]
    -- The compression.
    refine .bind (R := fun notices h _ =>
      Preparing capabilities (if capabilities.hasStr "COMPRESS=DEFLATE" then ["COMPRESS DEFLATE"]
        else []) h notices) ?_
      fun notices₂ tr t₂ hpreparing₂ => ?_
    · split
      · next hhas => exact compressSession_safe hfor hpreparing₁ hhas
      · exact .done hpreparing₁
    -- The names, of which nothing was asked before.
    have hnone₂ : ¬Seen (completed "ENABLE UTF8=ACCEPT")
        (h ++ [⟨s₁, .capability, answer, t₁⟩] ++ tr) := fun hseen => by
      have hmem := mem_commandsGiven hseen
      rw [hpreparing₂.given] at hmem
      split at hmem <;> simp at hmem
    refine .bind (R := fun (enabled : Bool × ServerNotices) h _ => Preparing capabilities
      ((if capabilities.hasStr "COMPRESS=DEFLATE" then ["COMPRESS DEFLATE"] else []) ++
        (if capabilities.hasStr "UTF8=ACCEPT" ||
          capabilities.hasStr "UTF8=ONLY" then ["ENABLE UTF8=ACCEPT"] else [])) h enabled.2 ∧
      (enabled.1 ↔ Seen (completed "ENABLE UTF8=ACCEPT") h)) ?_ fun enabled tr' t₃ hpreparing₃ => ?_
    · split
      · next hhas =>
        refine (runOptional_safe hfor hpreparing₂.toSignedIn hpreparing₂.announced
          (.inr (.inl ⟨rfl, by simpa using hhas⟩))).mono ?_ fun _ _ _ h => h
        rintro enabled tr' t₃ ⟨s₃, answer₃, t₃, htr, hagreed, hsigned₃⟩
        rw [htr] at hsigned₃ ⊢
        refine ⟨hpreparing₂.given_one hsigned₃ (by decide), ?_⟩
        rw [hagreed, seen_concat]
        exact ⟨.inr, fun hor => hor.resolve_left hnone₂⟩
      · refine .done ⟨?_, ?_⟩
        · rw [List.append_nil]
          exact hpreparing₂
        · simpa using hnone₂
    obtain ⟨utf8Names, notices₃⟩ := enabled
    -- The identification.
    refine .bind (R := fun notices h _ => Preparing capabilities
      (optionCommands options capabilities) h notices ∧
      (utf8Names ↔ Seen (completed "ENABLE UTF8=ACCEPT") h)) ?_
        fun notices₄ tr'' t₄ hpreparing₄ => ?_
    · cases hidentity : options.clientIdentity with
      | none =>
        refine .done ⟨?_, hpreparing₃.2⟩
        rw [optionCommands, hidentity, Option.map_none, Option.toList_none, List.append_nil]
        exact hpreparing₃.1
      | some identity =>
        refine .bind (runOptional_safe hfor hpreparing₃.1.toSignedIn hpreparing₃.1.announced
          (.inr (.inr ⟨identity, hidentity, rfl⟩)))
          fun done tr'' t₄ hdone => ?_
        obtain ⟨s₄, answer₄, t₄, htr, -, hsigned₄⟩ := hdone
        rw [htr] at hsigned₄ ⊢
        have hcompress : identification identity ≠ "COMPRESS DEFLATE" :=
          identification_ne identity (by decide)
        have henable : identification identity ≠ "ENABLE UTF8=ACCEPT" :=
          identification_ne identity (by decide)
        refine .done ⟨?_, ?_⟩
        · rw [optionCommands, hidentity]
          exact hpreparing₃.1.given_one hsigned₄ hcompress
        · have hnot : completed "ENABLE UTF8=ACCEPT" (.runCommand (identification identity))
              answer₄ = false := by
            obtain ⟨_ | _, unsolicited⟩ := answer₄ <;> simp [completed, henable]
          rw [hpreparing₃.2, seen_concat]
          simp [hnot]
    have hready := hpreparing₄.1.toSignedIn
    exact .done ⟨⟨hready.handshaken, hready.signedIn, hready.unread, hready.hears.collect⟩,
      hpreparing₄.1.announced, hpreparing₄.1.given, hpreparing₄.1.compressed, hpreparing₄.2⟩
  · obtain ⟨error, herror, rfl⟩ := mapError_eq_error hfails
    exact hsigned₁.hears.fails
      (.command (endedWith_capability herror) (reached_openedFor hfor hsigned₁.signedIn) rfl)

/-- **A signed-in session**, prepared for the step it is opened for. -/
theorem signInSession_safe :
    SafeOr E (Lawful account options) [] s (signInSession account options rounds .default openedFor)
    (fun prepared h _ => SignedIn h prepared.2 ∧ Prepared options prepared.1 h)
    (Fails account openedFor) := by
  refine .bind secureConnection_safe fun notices tr t hsecured => ?_
  refine .bind (signIn_safe hsecured) fun notices tr' t' hsigned => ?_
  exact prepareSession_safe hfor hsigned.1 hsigned.2

omit hfor in
theorem SignedIn.lawful {o : SessionOp} {a : SessionAns o} {s' t : σ} (hsigned : SignedIn h notices)
    (ho : o.readsMailboxes) : Lawful account options h ⟨s', o, a, t⟩ := by
  have hsecured := hsigned.handshaken
  have hsignedIn := hsigned.signedIn
  cases o <;> simp at ho <;> constructor <;> simp_all

end Rules

end Mailbag.Imap
