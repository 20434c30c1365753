import TapeShell.Machine.Scripted
import TapeShell.Main
import TapeShell.Proofs.Text.Utf8
import TapeShell.Proofs.Text.Quoted
import TapeShell.Proofs.Reader.Run
import TapeShell.Proofs.Reader.Grammar
import TapeShell.Proofs.Reader.Prefix
import TapeShell.Proofs.Reader.Completion
import TapeShell.Proofs.Eval.Recorded
import TapeShell.Proofs.Session.Pieces
import TapeShell.Proofs.Session.Quit
import TapeShell.Proofs.Session.Conservation
import TapeShell.Proofs.Bencode.Canonical
import TapeShell.Proofs.Tape.Brackets
import TapeShell.Proofs.Tape.Run
import TapeShell.Proofs.Tape.Structured
import TapeShell.Proofs.Tape.Printing
import TapeShell.Proofs.Wire.Result
import TapeShell.Proofs.Wire.Schedule
import TapeShell.Proofs.Wire.Arguments
import TapeShell.Proofs.Deck.Ledger
import TapeShell.Proofs.Deck.Overview
import TapeShell.Proofs.Session.Sources
import TapeShell.Proofs.Deck.Isolation
import TapeShell.Proofs.Eval.Trace
import TapeShell.Proofs.Eval.Wholeness
import TapeShell.Proofs.Session.Endings
import TapeShell.Proofs.Deck.Values
import TapeShell.Proofs.Wire.Texts
import TapeShell.Proofs.Reader.Rendering
import TapeShell.Proofs.Tape.Matching
import TapeShell.Proofs.Tape.Bounds
import TapeShell.Proofs.Bencode.Failures
import TapeShell.Proofs.Reader.Refusal
import TapeShell.Proofs.Tape.Lockstep
import TapeShell.Proofs.Wire.Skeleton
import TapeShell.Proofs.Text.Escapes
import TapeShell.Proofs.Deck.Messages
import TapeShell.Proofs.Deck.Entries
import TapeShell.Proofs.Reader.Failures
import TapeShell.Proofs.Session.Prompts
import TapeShell.Proofs.Session.Hosted
import TapeShell.Proofs.Wire.Broken
import TapeShell.Proofs.Bencode.Numbers
