import Mailbag.Domain

/-!
# Microsoft Graph as a cycle meets it

The requests a cycle makes of Microsoft Graph and what the service answers: pages of a
delta reading, a message as it is now, texts, and changes of a message's flags.

## The model

A request is answered with its result or with the error it failed with. The one renewal
of the access token a cycle may use is part of how a request comes by its answer.
-/

namespace Mailbag.Graph

/-- A sender or recipient as the service names it. -/
structure Mailbox where
  /-- The name. -/
  name : Option String
  /-- The address. -/
  address : Option String
  deriving DecidableEq

/-- One message of an answer. -/
structure GraphMessage where
  /-- The identifier that stays the same when the message moves. -/
  immutableId : String
  /-- The subject. -/
  subject : Option String
  /-- The sender. -/
  sender : Option Mailbox
  /-- The recipients. -/
  recipients : List Mailbox
  /-- When it arrived. -/
  receivedUnix : Option ℤ
  /-- Whether it is read. -/
  isRead : Bool
  /-- Whether it is starred. -/
  flagged : Bool
  /-- The beginning of its text. -/
  bodyPreview : Option String
  deriving DecidableEq

/-- Where a delta reading of a folder's messages starts. -/
inductive ChangesFrom where
  /-- A first reading of the folder with this id. -/
  | firstReading (folder : String)
  /-- A link the service gave. -/
  | link (link : String)
  deriving DecidableEq

/-- How a page of a delta reading ends. -/
inductive NextPage where
  /-- The reading goes on at this link. -/
  | more (link : String)
  /-- The reading is complete; the next round of changes starts at this link. -/
  | finished (link : String)
  deriving DecidableEq

/-- One entry of a delta page. -/
inductive MessageChange where
  /-- The message left the folder. -/
  | removed (id : String)
  /-- The message with every list field. -/
  | listed (message : GraphMessage)
  /-- Only what changed of the flags, and whether other list fields changed too. -/
  | changed (id : String) (isRead flagged : Option Bool) (otherFields : Bool)
  deriving DecidableEq

/-- One page of a delta reading. -/
structure ChangePage where
  /-- The entries, in the service's order. -/
  changes : List MessageChange
  /-- How it ends. -/
  next : NextPage
  deriving DecidableEq

/-- A change of one of the user's flags of a message. -/
inductive FlagUpdate where
  /-- The read mark. -/
  | read (value : Bool)
  /-- The star. -/
  | starred (value : Bool)
  deriving DecidableEq

/-- How a request failed. -/
inductive GraphFailure where
  /-- No connection, a refused certificate or a broken transfer. -/
  | connectionFailed
  /-- The service no longer accepts a saved link. -/
  | positionRejected
  /-- The service stopped responding. -/
  | timedOut
  /-- The service answered with a status other than 200. -/
  | refused (status : ℕ) (code : Option String)
  /-- The answer is not the documented JSON. -/
  | invalidReply
  deriving DecidableEq

/-- A failed request, with the platform's or the service's text. -/
structure GraphError where
  /-- How it failed. -/
  failure : GraphFailure
  /-- The text. -/
  reason : Option String
  deriving DecidableEq

/-- A request of a cycle. -/
inductive GraphRequest where
  /-- One page of a delta reading. -/
  | readMessageChanges (start : ChangesFrom)
  /-- One message with the id of the folder it is in now. -/
  | readMessage (id : String)
  /-- One message's text. -/
  | readMessageText (id : String)
  /-- The texts of a folder's messages received between two dates. -/
  | readTextsReceivedBetween (folder : String) (first last : ℤ)
  /-- Set a message's read mark or star. -/
  | updateMessageFlags (id : String) (update : FlagUpdate)
  deriving DecidableEq

/-- What the service answers a request; a message that is gone is no failure. -/
abbrev GraphRequest.Reply : GraphRequest → Type
  | .readMessageChanges _ => Except GraphError ChangePage
  | .readMessage _ => Except GraphError (Option (GraphMessage × String))
  | .readMessageText _ => Except GraphError (Option String)
  | .readTextsReceivedBetween .. => Except GraphError (List (String × Option String))
  | .updateMessageFlags .. => Except GraphError Unit

end Mailbag.Graph
