import Storyworld.Main
import Storyworld.Random.Replay
import Storyworld.Proofs.Pass
import Storyworld.Proofs.RoundTrip
import Storyworld.Proofs.Descent
import Storyworld.Proofs.Links
import Storyworld.Proofs.Overlay
import Storyworld.Proofs.Validity
import Storyworld.Proofs.Location
import Storyworld.Proofs.Handles
import Storyworld.Proofs.Ancestry
import Storyworld.Proofs.Narration
import Storyworld.Proofs.Lawful
import Storyworld.Proofs.Declaring
import Storyworld.Proofs.Partition
import Storyworld.Proofs.Sequel
import Storyworld.Proofs.Outlined
import Storyworld.Proofs.Questions
import Storyworld.Proofs.Suspects
import Storyworld.Proofs.Commuting
import Storyworld.Proofs.Chance
import Storyworld.Proofs.Detours
import Storyworld.Proofs.Joined
import Storyworld.Proofs.Causes
import Storyworld.Proofs.Refused
import Storyworld.Proofs.Boundaries
import Storyworld.Proofs.Lookback
import Storyworld.Proofs.Layout
import Storyworld.Proofs.Overwritten
import Storyworld.Proofs.Inert
import Storyworld.Proofs.Listed
