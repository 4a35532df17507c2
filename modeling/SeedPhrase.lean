import SeedPhrase.Cache.References
import SeedPhrase.Cache.Threads
import SeedPhrase.Draws
import SeedPhrase.Log.Logger
import SeedPhrase.Proofs.Cache.Account
import SeedPhrase.Proofs.Cache.Advance
import SeedPhrase.Proofs.Cache.Chronicle
import SeedPhrase.Proofs.Cache.FailedLoad
import SeedPhrase.Proofs.Cache.History
import SeedPhrase.Proofs.Cache.Keeping
import SeedPhrase.Proofs.Cache.Ledger
import SeedPhrase.Proofs.Cache.Linearizable
import SeedPhrase.Proofs.Cache.LoadAccounting
import SeedPhrase.Proofs.Cache.Tick
import SeedPhrase.Proofs.Completion
import SeedPhrase.Proofs.Discretion
import SeedPhrase.Proofs.Drawing
import SeedPhrase.Proofs.EnglishMnemonic
import SeedPhrase.Proofs.Eviction
import SeedPhrase.Proofs.FirstFault
import SeedPhrase.Proofs.Grammar
import SeedPhrase.Proofs.Installation
import SeedPhrase.Proofs.Lookup
import SeedPhrase.Proofs.Phrases
import SeedPhrase.Proofs.Places
import SeedPhrase.Proofs.Recovery
import SeedPhrase.Proofs.Regrouping
import SeedPhrase.Proofs.Slices
import SeedPhrase.Proofs.Spelling
import SeedPhrase.Proofs.StraySpaces
import SeedPhrase.Proofs.Stretching
import SeedPhrase.Proofs.Verdict
import SeedPhrase.Proofs.Transit
import SeedPhrase.Session
