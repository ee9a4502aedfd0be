import Resumption.Console.Terminal
import Resumption.Text.Bytes
import Resumption.Text.Lines

/-!
# The stream terminal

* `Chunk` : what a source of bytes offers next: some bytes, or an error;
* `Source.takeLine` : the bytes through the next newline, over as many chunks as it takes;
* `Sink` : a destination of bytes that may take them piecewise, up to a limit, and whose flushes may
  fail; `Sink.writeAll` writes until all is accepted or a write fails;
* `StreamTerminal` : a source and a sink; `StreamTerminal.readLine`, `StreamTerminal.writeLine`.

A chunk without bytes means the end of the input, once; of two such chunks in a row the second goes
with the first. An interrupted read is tried again. When a read fails, the bytes of the line begun
are lost.
-/

namespace Resumption

inductive Chunk where
  | bytes (bs : List UInt8)
  | error (e : IoError)
  deriving DecidableEq

/-- The chunks a source will offer, in order; after the last one comes the end of the input. -/
abbrev Source := List Chunk

namespace Source

/-- The source with the rest of a chunk in front; an empty rest is dropped. -/
def putBack (rest : List UInt8) (source : Source) : Source :=
  if rest.isEmpty then source else .bytes rest :: source

/-- The source after an end of the input: nothing was taken of the next chunk, so it is gone as well if it
is empty. -/
def afterEnd : Source → Source
  | .bytes [] :: source => source
  | source => source

/-- The bytes through the next newline or to the end of the input, and the source behind them. -/
def takeLine : Source → Except IoError (List UInt8) × Source
  | [] => (.ok [], [])
  | .error e :: source => if e.isInterrupted then takeLine source else (.error e, source)
  | .bytes [] :: source => (.ok [], afterEnd source)
  | .bytes bs :: source =>
    match bs.span (· != Text.newline) with
    | (line, newline :: rest) => (.ok (line ++ [newline]), putBack rest source)
    | (line, []) =>
      match takeLine source with
      | (.ok following, source) => (.ok (line ++ following), source)
      | (.error e, source) => (.error e, source)

end Source

structure Sink where
  /-- The bytes accepted, in order. -/
  written : Array UInt8
  /-- The number of flushes so far. -/
  flushes : Nat
  /-- The most bytes that one write accepts. -/
  chunk : Option Nat
  /-- The most bytes that are accepted in all. -/
  limit : Option Nat
  /-- Whether the flush of a given number, from one, fails. -/
  flushFails : Nat → Bool
  /-- The error of writes beyond the limit and of flushes that fail. -/
  error : IoError

namespace Sink

def unlimited : Sink :=
  ⟨#[], 0, none, none, fun _ => false, .plain .other⟩

/-- How many bytes the next write accepts: `none` without a bound, `some 0` when the write fails. -/
def accepts (sink : Sink) : Option (Option Nat) :=
  match sink.limit with
  | none => some sink.chunk
  | some limit =>
    if limit ≤ sink.written.size then none
    else
      let room := limit - sink.written.size
      some (some (min (sink.chunk.getD room) room))

/-- Writes `data` piece after piece, until all of it is accepted or a write fails. -/
def writeAll (data : List UInt8) (sink : Sink) : Except IoError Unit × Sink :=
  match data with
  | [] => (.ok (), sink)
  | first :: rest =>
    match sink.accepts with
    | none => (.error sink.error, sink)
    | some none => (.ok (), { sink with written := sink.written ++ first :: rest })
    | some (some 0) => (.error .nothingWritten, sink)
    | some (some (n + 1)) =>
      writeAll (rest.drop n) { sink with written := sink.written ++ first :: rest.take n }
termination_by data.length
decreasing_by simp only [List.length_drop, List.length_cons]; omega

def flush (sink : Sink) : Except IoError Unit × Sink :=
  let number := sink.flushes + 1
  let result := if sink.flushFails number then .error sink.error else .ok ()
  (result, { sink with flushes := number })

@[simp] theorem writeAll_nil (sink : Sink) : sink.writeAll [] = (.ok (), sink) := by
  simp [writeAll]

end Sink

structure StreamTerminal where
  input : Source
  output : Sink

namespace StreamTerminal

/-- Writes `text` and a newline, and flushes if all of it was accepted. -/
def writeLine (text : String) : StreamTerminal → Except IoError Unit × StreamTerminal
  | ⟨input, output⟩ =>
    match output.writeAll (Text.bytes text) with
    | (.error e, output) => (.error e, ⟨input, output⟩)
    | (.ok (), output) =>
      match output.writeAll [Text.newline] with
      | (.error e, output) => (.error e, ⟨input, output⟩)
      | (.ok (), output) =>
        let (result, output) := output.flush
        (result, ⟨input, output⟩)

/-- Reads a line without its terminator. Bytes that are no UTF-8 are consumed all the same. -/
def readLine : StreamTerminal → Except IoError (Option String) × StreamTerminal
  | ⟨input, output⟩ =>
    match input.takeLine with
    | (.error e, input) => (.error e, ⟨input, output⟩)
    | (.ok [], input) => (.ok none, ⟨input, output⟩)
    | (.ok bs, input) =>
      match Text.ofBytes? bs with
      | none => (.error .invalidText, ⟨input, output⟩)
      | some piece =>
        (.ok (some (String.ofList (Text.withoutTerminator piece.toList))), ⟨input, output⟩)

/-- Flushes and ends everything with `code`, even if the flush failed. -/
def exit (code : Int32) : StreamTerminal → ExitRequest × StreamTerminal
  | ⟨input, output⟩ =>
    match output.flush with
    | (.ok (), output) => (.ended code none, ⟨input, output⟩)
    | (.error e, output) => (.ended code (some e), ⟨input, output⟩)

instance : Terminal StreamTerminal := ⟨writeLine, readLine, exit⟩

end StreamTerminal

/-- A `StreamTerminal` whose exits end nothing; the last code asked for is `exitCode`. -/
structure WatchedStream where
  terminal : StreamTerminal
  exitCode : Option Int32

namespace WatchedStream

def through {α : Type} (use : StreamTerminal → α × StreamTerminal) :
    WatchedStream → α × WatchedStream
  | ⟨terminal, exitCode⟩ =>
    let (a, terminal) := use terminal
    (a, ⟨terminal, exitCode⟩)

def exit (code : Int32) : WatchedStream → ExitRequest × WatchedStream
  | ⟨terminal, _⟩ => (.noted, ⟨terminal, some code⟩)

instance : Terminal WatchedStream where
  writeLine text := through (StreamTerminal.writeLine text)
  readLine := through StreamTerminal.readLine
  exit := exit

end WatchedStream

end Resumption
