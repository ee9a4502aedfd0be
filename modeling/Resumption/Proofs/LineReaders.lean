import Resumption.Files.Disk
import Resumption.Files.Memory
import Resumption.Proofs.Console.Reading

/-!
# The readers of lines agree

* `Disk.readLines_eq_ok_iff` : a disk gives the lines that are read, one after the other, from a stream
  over the bytes of the file;
* `readers_agree` : a stream that holds a text, a file in memory with that text and a file on a disk with
  its bytes give the same lines, which are those that the text consists of.
-/

namespace Resumption

open Terminal (ReadsAll afterReads)

theorem Disk.readLines_of_readBytes {disk : Disk} {path : Path} {bytes : Array UInt8}
    (h : disk.readBytes path = .ok bytes) :
    Disk.readLines path disk =
      (match Text.ofBytes? bytes.toList with
        | some text => .ok (Text.lines text)
        | none => .error .invalidText, disk) := by
  rw [Disk.readLines, h]
  rfl

/-- `Disk.readLines` is a stream over the bytes of the file read to the end: it gives `ls` exactly if the
stream does, and where some line is no text neither gives lines. -/
theorem Disk.readLines_eq_ok_iff {disk : Disk} {path : Path} {bytes : Array UInt8}
    (h : disk.readBytes path = .ok bytes) {source : Source} (hsource : source.Holds bytes.toList)
    (sink : Sink) (ls : List String) :
    (Disk.readLines path disk).1 = .ok ls ↔
      ∃ t, ReadsAll (⟨source, sink⟩ : StreamTerminal) ls t := by
  rw [StreamTerminal.readsAll_iff hsource, Disk.readLines_of_readBytes h]
  cases htext : Text.ofBytes? bytes.toList with
  | none =>
    refine iff_of_false (fun hok => by cases hok) ?_
    rintro ⟨text, hbytes, -⟩
    rw [hbytes, Text.ofBytes?_bytes] at htext
    cases htext
  | some text =>
    rw [← (Text.ofBytes?_eq_some_iff _ _).1 htext]
    constructor
    · intro hok
      exact ⟨text, rfl, Except.ok.inj hok⟩
    · rintro ⟨text', hbytes, rfl⟩
      rw [Text.bytes_injective hbytes]

/-- A stream that holds `s`, a file in memory with the contents `s` and a file on a disk with the bytes of
`s` give the same `ls`, the only list with `Text.Lined s ls`. After `k` reads of the stream the text behind
the first `k` lines is left, and the next read gives `ls[k]?`; from the first `none` on every read gives
`none`. -/
theorem readers_agree {s : String} {source : Source} (hsource : source.Holds (Text.bytes s))
    {fs : MemoryFiles} {path : Path} (hmemory : fs.contents? path = some s) {disk : Disk}
    {path' : Path} (hdisk : disk.readBytes path' = .ok (Text.bytes s).toArray) (sink : Sink) :
    ∃ ls, (∀ ls', Text.Lined s ls' ↔ ls' = ls) ∧
      (∃ t, ReadsAll (⟨source, sink⟩ : StreamTerminal) ls t) ∧
      FileSystem.readLines path fs = (.ok ls, fs) ∧
      FileSystem.readLines path' disk = (.ok ls, disk) ∧
      (∀ k, ∃ read source', s = read ++ Text.afterLine^[k] s ∧ Text.Lined read (ls.take k) ∧
        afterReads k (⟨source, sink⟩ : StreamTerminal) = ⟨source', sink⟩ ∧
        source'.Holds (Text.bytes (Text.afterLine^[k] s)) ∧
        (StreamTerminal.readLine ⟨source', sink⟩).1 = .ok ls[k]?) ∧
      ∀ k, (StreamTerminal.readLine (afterReads k ⟨source, sink⟩)).1 = .ok none →
        ∀ j ≥ k, (StreamTerminal.readLine (afterReads j ⟨source, sink⟩)).1 = .ok none := by
  obtain ⟨_, hreads⟩ := StreamTerminal.readsAll_of_holds hsource sink
  have hnext := StreamTerminal.readLine_afterReads hsource sink
  have hlines : (Disk.readLines path' disk).1 = .ok (Text.lines s) :=
    (Disk.readLines_eq_ok_iff hdisk (by rwa [List.toList_toArray]) sink _).2 ⟨_, hreads⟩
  refine ⟨Text.lines s, fun ls' => by rw [Text.lined_iff, eq_comm], ⟨_, hreads⟩,
    MemoryFiles.readLines_of_contents? hmemory, Prod.ext hlines rfl, fun k => ?_, fun k hk j hj => ?_⟩
  · obtain ⟨read, hs, hread⟩ := Text.exists_append_afterLines s k
    obtain ⟨source', hafter, hholds⟩ := StreamTerminal.afterReads_of_holds hsource sink k
    refine ⟨read, source', hs, (Text.lined_iff _ _).2 hread, hafter, hholds, ?_⟩
    rw [← hafter, hnext]
  · have hspent : (Text.lines s)[k]? = none := Except.ok.inj ((hnext k).symm.trans hk)
    rw [List.getElem?_eq_none_iff] at hspent
    rw [hnext, List.getElem?_eq_none (hspent.trans hj)]

/-- A stream that is cut between a carriage return and its newline, and files with the same text. -/
theorem readers_agree_cut_return :
    let s := "a\r\n\rb"
    let source : Source := [.bytes [97, 13], .bytes [10, 13, 98]]
    let fs := MemoryFiles.empty.withFile ⟨"x//in"⟩ s
    let disk := Disk.start.write ⟨"in"⟩ (Text.bytes s)
    source.Holds (Text.bytes s) ∧ fs.contents? ⟨"x/in"⟩ = some s ∧
      disk.readBytes ⟨"./in"⟩ = .ok (Text.bytes s).toArray ∧
      (∃ t, ReadsAll (⟨source, .unlimited⟩ : StreamTerminal) ["a", "\rb"] t) ∧
      FileSystem.readLines ⟨"x/in"⟩ fs = (.ok ["a", "\rb"], fs) ∧
      FileSystem.readLines ⟨"./in"⟩ disk = (.ok ["a", "\rb"], disk) := by
  intro s source fs disk
  have hsource : source.Holds (Text.bytes s) :=
    .chunk (List.cons_ne_nil _ _) (.chunk (List.cons_ne_nil _ _) .spent)
  have hmemory : fs.contents? ⟨"x/in"⟩ = some s := by decide +kernel
  have hdisk : disk.readBytes ⟨"./in"⟩ = .ok (Text.bytes s).toArray := by rfl
  have hlined : Text.Lined s ["a", "\rb"] :=
    @Text.Lined.returnNewline "a" "\rb" ["\rb"] (by decide) (.last (by decide) (by decide))
  obtain ⟨ls, hls, hstream, hfs, hfile, -⟩ := readers_agree hsource hmemory hdisk .unlimited
  obtain rfl := (hls _).1 hlined
  exact ⟨hsource, hmemory, hdisk, hstream, hfs, hfile⟩

end Resumption
