import HardFork.Main
import HardFork.Proofs.Active
import HardFork.Proofs.Bootstrap
import HardFork.Proofs.ChainId.Spelling
import HardFork.Proofs.CommandLine
import HardFork.Proofs.Commitment
import HardFork.Proofs.Decoding
import HardFork.Proofs.Descent
import HardFork.Proofs.Document
import HardFork.Proofs.Hexadecimal.Literal
import HardFork.Proofs.Hexadecimal.Pairs
import HardFork.Proofs.History
import HardFork.Proofs.MemberOrder
import HardFork.Proofs.Nesting
import HardFork.Proofs.Offender
import HardFork.Proofs.Petersburg
import HardFork.Proofs.Policies
import HardFork.Proofs.Records
import HardFork.Proofs.Registry
import HardFork.Proofs.Reported
import HardFork.Proofs.Summary
import HardFork.Registry
import HardFork.Service
