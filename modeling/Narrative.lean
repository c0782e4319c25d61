import Narrative.HostConfig
import Narrative.Diagnostics
import Narrative.Json.Canonical
import Narrative.Proofs.Index
import Narrative.Proofs.Wording
import Narrative.Proofs.Lookup
import Narrative.Proofs.Spelling
import Narrative.Proofs.Steady
import Narrative.Proofs.Law
import Narrative.Proofs.Steps
import Narrative.Proofs.Moves
import Narrative.Proofs.Completion
import Narrative.Proofs.Nesting
import Narrative.Proofs.Abreast
import Narrative.Proofs.Answers
import Narrative.Proofs.Continuation
import Narrative.Proofs.Ledger
import Narrative.Proofs.Session
import Narrative.Proofs.Bookkeeping
import Narrative.Proofs.Journal
import Narrative.Proofs.Replay
import Narrative.Proofs.Queue
import Narrative.Proofs.Finishing
import Narrative.Proofs.Snapshot
import Narrative.Proofs.Handling
import Narrative.Proofs.Candidacy
import Narrative.Proofs.Reports
import Narrative.Proofs.Locality
import Narrative.Proofs.Conduct
import Narrative.Proofs.Policy
import Narrative.Proofs.Gate
import Narrative.Proofs.Reading
import Narrative.Proofs.RoundTrip
import Narrative.Proofs.Pruning
import Narrative.Proofs.Branching
import Narrative.Proofs.Negation
import Narrative.Proofs.Cascade
import Narrative.Proofs.Room
import Narrative.Proofs.Hearing
import Narrative.Proofs.LooseIds
import Narrative.Proofs.Upkeep
import Narrative.Proofs.Holdings
import Narrative.Proofs.Quests
import Narrative.Proofs.Achievements
import Narrative.Proofs.Notices
import Narrative.Proofs.Loading
