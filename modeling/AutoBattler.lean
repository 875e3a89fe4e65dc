import AutoBattler.Main
import AutoBattler.Purchase
import AutoBattler.Proofs.Coupling
import AutoBattler.Proofs.Scope
import AutoBattler.Proofs.Performing
import AutoBattler.Proofs.Fighting
import AutoBattler.Proofs.Boards
import AutoBattler.Proofs.Cycles
import AutoBattler.Proofs.Battles
import AutoBattler.Proofs.BoardInvariant
import AutoBattler.Proofs.ShopTurns
import AutoBattler.Proofs.Population
import AutoBattler.Proofs.Vitality
import AutoBattler.Proofs.Rescue
import AutoBattler.Proofs.Definedness
import AutoBattler.Proofs.Capacity
import AutoBattler.Proofs.Recursion
import AutoBattler.Proofs.Drained
import AutoBattler.Proofs.Termination
import AutoBattler.Proofs.Chronicle
import AutoBattler.Proofs.Discretion
import AutoBattler.Proofs.Faints
import AutoBattler.Proofs.Silence
import AutoBattler.Proofs.Levels
import AutoBattler.Proofs.Teaching
import AutoBattler.Proofs.Alike
import AutoBattler.Proofs.Concurrence
import AutoBattler.Proofs.Settings
import AutoBattler.Proofs.Indexing
import AutoBattler.Proofs.Outcomes
import AutoBattler.Proofs.Wrapping
import AutoBattler.Proofs.Designation
import AutoBattler.Proofs.Contexts
import AutoBattler.Proofs.Casting
import AutoBattler.Proofs.Repeats
import AutoBattler.Proofs.Notes
import AutoBattler.Proofs.Histories
import AutoBattler.Proofs.Waiting
import AutoBattler.Proofs.Deferral
import AutoBattler.Proofs.Writeback
import AutoBattler.Proofs.HomeSide
import AutoBattler.Proofs.Accounts
import AutoBattler.Proofs.Lining
import AutoBattler.Proofs.Clash
import AutoBattler.Proofs.Facing
import AutoBattler.Proofs.Quiet
import AutoBattler.Proofs.Exchange
import AutoBattler.Proofs.Mirror
import AutoBattler.Proofs.Turnover
import AutoBattler.Proofs.Bounds
import AutoBattler.Proofs.Spelling
import AutoBattler.Proofs.Scanning
import AutoBattler.Proofs.Reading
import AutoBattler.Proofs.Forms
import AutoBattler.Proofs.EffectForms
import AutoBattler.Proofs.Definitions
import AutoBattler.Proofs.Saving
import AutoBattler.Proofs.Pairings
import AutoBattler.Proofs.Standings
import AutoBattler.Proofs.Reverting
import AutoBattler.Proofs.Undefined
import AutoBattler.Proofs.Choosing
import AutoBattler.Proofs.Extremes
import AutoBattler.Proofs.Duel
import AutoBattler.Proofs.Plain
import AutoBattler.Proofs.Feeding
import AutoBattler.Proofs.Placing
import AutoBattler.Proofs.Caps
import AutoBattler.Proofs.Spending
import AutoBattler.Proofs.Learning
import AutoBattler.Proofs.Stocking
import AutoBattler.Proofs.Registers
