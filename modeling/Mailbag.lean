import Mailbag.Interaction.Turns
import Mailbag.Cycle.ImapRuns
import Mailbag.Cycle.Graph
import Mailbag.Cycle.QuickPass
import Mailbag.Store.Wishes
import Mailbag.Store.BatchEffect
import Mailbag.Store.Contents
import Mailbag.Collections.Forest
import Mailbag.Folders.MailboxNames
import Mailbag.Folders.Reached
import Mailbag.Interaction.System
import Mailbag.OnlineAccounts.Observer
import Mailbag.OnlineAccounts.ObserverRuns
import Mailbag.Loads.Refreshes
import Mailbag.Loads.Worker
import Mailbag.Loads.Ends
import Mailbag.Loads.Slot
import Mailbag.Loads.Progress
import Mailbag.Loads.EndsOnce
import Mailbag.Loads.Excluded
import Mailbag.Window.ShownMailbox
import Mailbag.Window.StoredChanges
import Mailbag.Imap.PageWithText
import Mailbag.Cycle.ImapAsks
import Mailbag.Cycle.SentCommands
import Mailbag.Cycle.Settled
import Mailbag.Cycle.QuietCycles
import Mailbag.Cycle.AsNew
import Mailbag.Cycle.AsNewCycles
import Mailbag.Store.Replacement
import Mailbag.Graph.MergedEntries
import Mailbag.Graph.ChangePages
import Mailbag.Cycle.GraphPages
import Mailbag.Cycle.GraphCycle
import Mailbag.Cycle.GraphTurns
import Mailbag.Cycle.GraphRemovals
import Mailbag.Cycle.GraphReadings
import Mailbag.Cycle.GraphPlaces
import Mailbag.Imap.RowsByUid
import Mailbag.Content.Flowed
import Mailbag.Imap.TextSelection
import Mailbag.Collections.Positional
import Mailbag.Folders.ModifiedUtf7
import Mailbag.Collections.Slices
import Mailbag.Imap.Utf7
import Mailbag.Collections.Matching
import Mailbag.Window.MessageItems
import Mailbag.Window.ListDifference
import Mailbag.Collections.Fresh
import Mailbag.Window.AccountRows
import Mailbag.Window.DisplayLabels
import Mailbag.Collections.Occurrences
import Mailbag.Imap.SignInName
import Mailbag.Collections.Grouping
import Mailbag.Imap.TextAnswers
import Mailbag.Collections.Spacing
import Mailbag.Content.Preview
import Mailbag.Window.MailUiRuns
import Mailbag.Imap.SessionOrder
import Mailbag.Cycle.GraphSending
import Mailbag.Folders.GraphFolders
import Mailbag.Window.SidebarRuns
import Mailbag.Window.MainWindowRuns
import Mailbag.Window.MainWindowListed
import Mailbag.Window.MainWindowFlags
import Mailbag.Window.MainWindowScreen
import Mailbag.Window.MainWindowFolders
import Mailbag.Window.MainWindowRest
