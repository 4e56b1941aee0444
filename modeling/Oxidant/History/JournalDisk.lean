import Mathlib.Data.List.Sort
import Oxidant.History.Folding
import Oxidant.Lib.Prog
import Oxidant.Lib.Steps

/-! The statement journal on its disk: segments a writer appends lines to, generations compaction
writes in their place, and the replay of both at boot. The disk may refuse any request, and the
process may die between any two of them. Over a disk that can be read and leaves no part of a refused
write a replay folds every record of the files. -/
namespace Oxidant.History
open Lib

structure Codec (α : Type) where
  newline : α
  render : JournalRecord → List α
  parse : List α → Option JournalRecord
  blank : List α → Bool
  parse_render : ∀ rec, parse (render rec) = some rec
  newline_not_mem : ∀ rec, newline ∉ render rec
  render_not_blank : ∀ rec, blank (render rec) = false

namespace Codec
variable {α : Type} (codec : Codec α)

def line (rec : JournalRecord) : List α := codec.render rec ++ [codec.newline]

def text (recs : List JournalRecord) : List α := recs.flatMap codec.line

def lines [DecidableEq α] : List α → List (List α)
  | [] => []
  | char::rest =>
    if char = codec.newline then []::lines rest
    else match lines rest with
      | [] => [[char]]
      | first::others => (char::first)::others

end Codec

structure JournalConfig where
  maxRecords : Nat
  retentionDays : Int
  segmentMaxBytes : Nat

inductive JournalFile where
  | segment (index : Nat)
  | generation (index : Nat)
  deriving DecidableEq, Repr

def JournalFile.segmentIndex? : JournalFile → Option Nat
  | segment index => some index
  | generation _ => none

def JournalFile.generationIndex? : JournalFile → Option Nat
  | segment _ => none
  | generation index => some index

inductive JournalDir where
  | statements
  | compacted
  deriving DecidableEq, Repr

def JournalFile.dir : JournalFile → JournalDir
  | segment _ => .statements
  | generation _ => .compacted

/-- A file as the system has it, how much of it is on the disk for sure, and whether its name is. -/
structure LogFile (α : Type) where
  content : List α := []
  synced : Nat := 0
  linked : Bool := false
  deriving DecidableEq, Repr

/-- A rename names the statements the generation leaves out for retention; `ack` completes the
durability ack of a record. -/
inductive JournalRequest (α : Type) where
  | createDirs
  | leftovers
  | removeTemporary (index : Nat)
  | readMarker (index : Nat)
  | removeMarker (index : Nat)
  | segments
  | generations
  | read (file : JournalFile)
  | quarantine (file : JournalFile)
  | unlink (file : JournalFile)
  | openAppend (index : Nat)
  | syncDir (dir : JournalDir)
  | write (index : Nat) (bytes : List α)
  | syncData (index : Nat)
  | createTemporary (index : Nat)
  | writeTemporary (index : Nat) (bytes : List α)
  | syncTemporary (index : Nat)
  | rename (index : Nat) (dropped : List String)
  | createMarker (index : Nat)
  | writeMarker (index : Nat) (inputs : List JournalFile)
  | syncMarker (index : Nat)
  | clock
  | ack (rec : JournalRecord)

abbrev JournalAnswer (α : Type) : JournalRequest α → Type
  | .createDirs | .write _ _ | .syncData _ | .createTemporary _ | .writeTemporary _ _
  | .syncTemporary _ | .rename _ _ | .createMarker _ | .writeMarker _ _ | .syncMarker _ => Bool
  | .leftovers => Option (List Nat × List Nat)
  | .readMarker _ => Option (List JournalFile)
  | .segments | .generations => List Nat
  | .read _ => Option (List (List α) × Bool)
  | .openAppend _ => Option Nat
  | .clock => Int
  | .removeTemporary _ | .removeMarker _ | .quarantine _ | .unlink _ | .syncDir _ | .ack _ => Unit

inductive JournalFault where
  | refused
  deriving DecidableEq, Repr

abbrev JournalMethod (α σ : Type) := Act (JournalRequest α) (JournalAnswer α) σ JournalFault

namespace Journal
variable {α σ : Type}

def ask (op : JournalRequest α) : JournalMethod α σ (JournalAnswer α op) := Act.request op

def demand (granted : Bool) : JournalMethod α σ Unit :=
  Act.raise (if granted then .ok () else .error .refused)

variable (codec : Codec α) (cfg : JournalConfig)

def foldLines (fold : Fold) : List (List α) → Fold × Bool
  | [] => (fold,false)
  | line::rest =>
    if codec.blank line then foldLines fold rest
    else match codec.parse line with
      | some rec => foldLines (fold.apply rec) rest
      | none => (fold,true)

def quarantineIf (corrupt : Bool) (file : JournalFile) : JournalMethod α σ Unit :=
  if corrupt then ask (.quarantine file) else pure ()

def readInto (file : JournalFile) (fold : Fold) : JournalMethod α σ Fold := do
  let opened : Option (List (List α) × Bool) ← ask (.read file)
  match opened with
  | none => return fold
  | some (lines,broken) => do
    quarantineIf ((foldLines codec fold lines).2 || broken) file
    return (foldLines codec fold lines).1

def readAll : List JournalFile → Fold → JournalMethod α σ Fold
  | [],fold => pure fold
  | file::rest,fold => do
    let folded ← readInto codec file fold
    readAll rest folded

def readUntilFull : List JournalFile → Fold → JournalMethod α σ Fold
  | [],fold => pure fold
  | file::rest,fold =>
    if fold.statements.length ≥ cfg.maxRecords then pure fold
    else do
      let folded ← readInto codec file fold
      readUntilFull rest folded

def newestFirst (segments generations : List Nat) : List JournalFile :=
  segments.reverse.map .segment ++ generations.reverse.map .generation

def replay : JournalMethod α σ Fold := do
  let segments : List Nat ← ask .segments
  let generations : List Nat ← ask .generations
  readUntilFull codec cfg (newestFirst segments generations) {}

def unlinkInputs (index : Nat) (inputs : List JournalFile) : JournalMethod α σ Unit := do
  Act.each inputs fun input => ask (.unlink input)
  ask (.syncDir .statements)
  ask (.syncDir .compacted)
  ask (.removeMarker index)
  ask (.syncDir .compacted)

def redo (index : Nat) : JournalMethod α σ Unit := do
  let inputs : Option (List JournalFile) ← ask (.readMarker index)
  unlinkInputs index (inputs.getD [])

def recoverSwap : JournalMethod α σ Unit := do
  let found : Option (List Nat × List Nat) ← ask .leftovers
  match found with
  | none => return ()
  | some (temporaries,markers) => do
    Act.each temporaries fun index => ask (.removeTemporary index)
    Act.each markers redo

def millisPerDay : Int := 86400000

def withinAge (now : Int) (statements : List FoldedStatement) : List FoldedStatement :=
  if cfg.retentionDays > 0 then
    statements.filter fun st => !st.status.isTerminal || st.submittedAtMs ≥ now - cfg.retentionDays*millisPerDay
  else statements

def overCap (statements : List FoldedStatement) : List String :=
  (((statements.filter fun st => st.status.isTerminal).insertionSort fun one other =>
    one.seq ≤ other.seq).take (statements.length-cfg.maxRecords)).map FoldedStatement.id

def enforceRetention (now : Int) (fold : Fold) : Fold :=
  let aged := withinAge cfg now fold.statements
  {fold with statements := aged.filter fun st => st.id ∉ overCap cfg aged}

def insertBySeq (st : FoldedStatement) : List FoldedStatement → List FoldedStatement
  | [] => [st]
  | other::rest =>
    if st.seq < other.seq then st::other::rest
    else if st.seq = other.seq then st::rest
    else other::insertBySeq st rest

def bySeq (statements : List FoldedStatement) : List FoldedStatement :=
  statements.foldl (fun ordered st => insertBySeq st ordered) []

def sparse (surviving records : Nat) : Bool := records = 0 || 2*surviving > records

def nextIndex (indexes : List Nat) : Nat := (indexes.getLast?.map (·+1)).getD 0

def publish (index : Nat) (fold kept : Fold) : JournalMethod α σ Unit := do
  demand (← ask (.createTemporary index))
  demand (← ask (.writeTemporary index (codec.text ((bySeq kept.statements).map FoldedStatement.toSnapshot))))
  demand (← ask (.syncTemporary index))
  demand (← ask (.rename index ((fold.statements.map FoldedStatement.id).filter fun id =>
      id ∉ kept.statements.map FoldedStatement.id)))
  ask (.syncDir .compacted)

def swap (index : Nat) (inputs : List JournalFile) : JournalMethod α σ Unit := do
  demand (← ask (.createMarker index))
  demand (← ask (.writeMarker index inputs))
  demand (← ask (.syncMarker index))
  ask (.syncDir .compacted)
  unlinkInputs index inputs

def rewriteInputs (force : Bool) (index : Nat) (inputs : List JournalFile) (fold kept : Fold) :
    JournalMethod α σ Bool := do
  if !force && sparse kept.statements.length kept.records then return false
  else do
    publish codec index fold kept
    swap index inputs
    return true

def now : JournalMethod α σ Int :=
  if cfg.retentionDays > 0 then ask .clock else pure 0

def inputsOf (generations sealed : List Nat) : List JournalFile :=
  generations.map .generation ++ sealed.map .segment

def compactInputs (force : Bool) (generations sealed : List Nat) : JournalMethod α σ Bool := do
  let fold ← readAll codec (inputsOf generations sealed) {}
  let time ← now cfg
  rewriteInputs codec force (nextIndex generations) (inputsOf generations sealed) fold
    (enforceRetention cfg time fold)

def compactSealed (openSegment : Nat) (force : Bool) : JournalMethod α σ Bool := do
  let segments : List Nat ← ask .segments
  let generations : List Nat ← ask .generations
  let sealed := segments.filter fun index => index < openSegment
  if sealed.isEmpty then return false
  else compactInputs codec cfg force generations sealed

end Journal

structure Writer where
  file : Bool := false
  segment : Nat
  len : Nat := 0
  dirty : Bool := false
  degraded : Bool := false
  writeFailures : Nat := 0
  deriving DecidableEq, Repr

namespace Writer
variable {α : Type}
open Journal

def fail (writer : Writer) : Writer :=
  {writer with
    degraded := true
    writeFailures := writer.writeFailures+1
    file := false
    dirty := false}

def opened (len : Nat) (writer : Writer) : Writer := {writer with file := true,len}

def wrote (bytes : Nat) (writer : Writer) : Writer :=
  {writer with len := writer.len+bytes,dirty := true,degraded := false}

def settled (writer : Writer) : Writer := {writer with dirty := false,degraded := false}

def closed (writer : Writer) : Writer := {writer with file := false}

def rolled (writer : Writer) : Writer := {writer with segment := writer.segment+1,len := 0}

def openSegment : JournalMethod α Writer Bool := do
  let writer ← Act.get
  if writer.file then return true
  else do
    let answer : Option Nat ← ask (.openAppend writer.segment)
    match answer with
    | some len => do
      Act.modify (opened len)
      ask (.syncDir .statements)
      return true
    | none => do
      Act.modify fail
      return false

def writeLine (line : List α) : JournalMethod α Writer Bool := do
  let writer ← Act.get
  let written : Bool ← ask (.write writer.segment line)
  if written then do
    Act.modify (wrote line.length)
    return true
  else do
    Act.modify fail
    return false

variable (codec : Codec α) (cfg : JournalConfig)

def append (rec : JournalRecord) : JournalMethod α Writer Bool := do
  let ready ← openSegment
  if ready then writeLine (codec.line rec) else return false

def flush (index : Nat) : JournalMethod α Writer Bool := do
  let done : Bool ← ask (.syncData index)
  if done then do
    Act.modify settled
    return true
  else do
    Act.modify fail
    return false

def sync : JournalMethod α Writer Bool := do
  let writer ← Act.get
  if !writer.dirty then return true
  else if !writer.file then return false
  else flush writer.segment

def roll : JournalMethod α Writer Unit := do
  Act.modify closed
  ask (.syncDir .statements)
  Act.modify rolled

def sealSegment : JournalMethod α Writer Unit := do
  let _ ← sync
  let writer ← Act.get
  if writer.file then roll else return ()

def compact (force : Bool) : JournalMethod α Writer Unit := do
  let writer ← Act.get
  let _ ← Act.attempt (compactSealed codec cfg writer.segment force)
  return ()

def rollIfFull : JournalMethod α Writer Unit := do
  let writer ← Act.get
  if writer.len ≥ cfg.segmentMaxBytes then do
    sealSegment
    compact codec cfg false
  else return ()

def acknowledge (rec : JournalRecord) : JournalMethod α Writer Unit := do
  let durable ← sync
  if durable then ask (.ack rec) else return ()

def handleAppend (rec : JournalRecord) (wanted : Bool) : JournalMethod α Writer Unit := do
  let written ← append codec rec
  if wanted && written then acknowledge rec else pure ()
  rollIfFull codec cfg

def forceCompaction : JournalMethod α Writer Unit := do
  sealSegment
  compact codec cfg true

end Writer

/-- Recover, replay, and prepare the writer, which never opens a segment that is there. -/
def Journal.openJournal {α : Type} (codec : Codec α) (cfg : JournalConfig) :
    JournalMethod α Unit (Writer × Fold) := do
  demand (← ask .createDirs)
  recoverSwap
  let fold ← replay codec cfg
  let segments : List Nat ← ask .segments
  return ({segment := nextIndex segments},fold)

structure JournalDisk (α : Type) where
  files : List (JournalFile × LogFile α) := []
  temporaries : List (Nat × LogFile α) := []
  markers : List (Nat × List JournalFile) := []
  acked : List JournalRecord := []
  deriving DecidableEq, Repr

/-- What the environment decides: an unreadable file or directory, a refused operation and how much
of a write it leaves, a directory fsync, unlink or marker removal that fails unseen, and the time.
-/
structure DiskChoice where
  unreadable : Bool := false
  stops : Option Nat := none
  refused : Bool := false
  torn : Nat := 0
  unsynced : Bool := false
  stuck : Bool := false
  sticky : Bool := false
  now : Int := 0
  deriving DecidableEq, Repr

namespace JournalDisk
variable {α : Type}

def find (disk : JournalDisk α) (file : JournalFile) : Option (LogFile α) :=
  (disk.files.find? fun entry => entry.1 = file).map Prod.snd

def indexes (disk : JournalDisk α) (index? : JournalFile → Option Nat) : List Nat :=
  (disk.files.filterMap fun entry => index? entry.1).insertionSort (· ≤ ·)

def remove (disk : JournalDisk α) (file : JournalFile) : JournalDisk α :=
  {disk with files := disk.files.filter fun entry => entry.1 ≠ file}

def put (disk : JournalDisk α) (file : JournalFile) (log : LogFile α) : JournalDisk α :=
  {disk with files := (disk.remove file).files ++ [(file,log)]}

def update (disk : JournalDisk α) (file : JournalFile) (change : LogFile α → LogFile α) : JournalDisk α :=
  {disk with
    files := disk.files.map fun entry =>
      if entry.1 = file then (entry.1,change entry.2) else entry}

def temporary (disk : JournalDisk α) (index : Nat) : Option (LogFile α) :=
  (disk.temporaries.find? fun entry => entry.1 = index).map Prod.snd

def removeTemporary (disk : JournalDisk α) (index : Nat) : JournalDisk α :=
  {disk with temporaries := disk.temporaries.filter fun entry => entry.1 ≠ index}

def putTemporary (disk : JournalDisk α) (index : Nat) (log : LogFile α) : JournalDisk α :=
  {disk with temporaries := (disk.removeTemporary index).temporaries ++ [(index,log)]}

def marker (disk : JournalDisk α) (index : Nat) : Option (List JournalFile) :=
  (disk.markers.find? fun entry => entry.1 = index).map Prod.snd

def removeMarker (disk : JournalDisk α) (index : Nat) : JournalDisk α :=
  {disk with markers := disk.markers.filter fun entry => entry.1 ≠ index}

def putMarker (disk : JournalDisk α) (index : Nat) (inputs : List JournalFile) : JournalDisk α :=
  {disk with markers := (disk.removeMarker index).markers ++ [(index,inputs)]}

end JournalDisk

namespace LogFile
variable {α : Type}

def extend (bytes : List α) (log : LogFile α) : LogFile α :=
  {log with content := log.content ++ bytes}

def persist (log : LogFile α) : LogFile α := {log with synced := log.content.length}

def link (log : LogFile α) : LogFile α := {log with linked := true}

/-- What a crash leaves of a file of which `kept` bytes happen to be on the disk. -/
def cut (kept : Nat) (log : LogFile α) : LogFile α :=
  {log with content := log.content.take (max log.synced kept)}

end LogFile

namespace JournalDisk
variable {α : Type}

def openAppend (disk : JournalDisk α) (index : Nat) : Option Nat × JournalDisk α :=
  match disk.find (.segment index) with
  | some log => (some log.content.length,disk)
  | none => (some 0,disk.put (.segment index) {})

def syncDir (disk : JournalDisk α) (dir : JournalDir) : JournalDisk α :=
  {disk with
    files := disk.files.map fun entry =>
      if entry.1.dir = dir then (entry.1,entry.2.link) else entry}

def updateTemporary (disk : JournalDisk α) (index : Nat) (change : LogFile α → LogFile α) : JournalDisk α :=
  match disk.temporary index with
  | some log => disk.putTemporary index (change log)
  | none => disk

/-- The generation takes its name, and the acks of the statements it leaves out are void. -/
def rename (disk : JournalDisk α) (index : Nat) (dropped : List String) : Bool × JournalDisk α :=
  match disk.temporary index with
  | some log =>
    (true,{(disk.removeTemporary index).put (.generation index) {log with linked := false} with
      acked := disk.acked.filter fun rec => rec.id ∉ dropped})
  | none => (false,disk)

variable [DecidableEq α] (codec : Codec α)

def readFile (disk : JournalDisk α) (choice : DiskChoice) (file : JournalFile) : Option (List (List α) × Bool) :=
  (disk.find file).map fun log => match choice.stops with
    | some count => ((codec.lines log.content).take count,true)
    | none => (codec.lines log.content,false)

def reply : Device (JournalRequest α) (JournalAnswer α) DiskChoice (JournalDisk α)
  | choice,disk,.createDirs => (!choice.refused,disk)
  | choice,disk,.leftovers =>
    (if choice.unreadable then none
      else some (disk.temporaries.map Prod.fst,disk.markers.map Prod.fst),disk)
  | choice,disk,.removeTemporary index => ((),if choice.stuck then disk else disk.removeTemporary index)
  | choice,disk,.readMarker index => (if choice.unreadable then none else disk.marker index,disk)
  | choice,disk,.removeMarker index => ((),if choice.sticky then disk else disk.removeMarker index)
  | choice,disk,.segments => (if choice.unreadable then [] else disk.indexes JournalFile.segmentIndex?,disk)
  | choice,disk,.generations => (if choice.unreadable then [] else disk.indexes JournalFile.generationIndex?,disk)
  | choice,disk,.read file => (if choice.unreadable then none else disk.readFile codec choice file,disk)
  | choice,disk,.quarantine file => ((),if choice.stuck then disk else disk.remove file)
  | choice,disk,.unlink file => ((),if choice.stuck then disk else disk.remove file)
  | choice,disk,.openAppend index => if choice.refused then (none,disk) else disk.openAppend index
  | choice,disk,.syncDir dir => ((),if choice.unsynced then disk else disk.syncDir dir)
  | choice,disk,.write index bytes =>
    (!choice.refused,disk.update (.segment index)
      (LogFile.extend (if choice.refused then bytes.dropLast.take choice.torn else bytes)))
  | choice,disk,.syncData index =>
    (!choice.refused,if choice.refused then disk else disk.update (.segment index) LogFile.persist)
  | choice,disk,.createTemporary index =>
    (!choice.refused,if choice.refused then disk else disk.putTemporary index {})
  | choice,disk,.writeTemporary index bytes =>
    (!choice.refused,disk.updateTemporary index
      (LogFile.extend (if choice.refused then bytes.dropLast.take choice.torn else bytes)))
  | choice,disk,.syncTemporary index =>
    (!choice.refused,if choice.refused then disk else disk.updateTemporary index LogFile.persist)
  | choice,disk,.rename index dropped =>
    if choice.refused then (false,disk) else disk.rename index dropped
  | choice,disk,.createMarker index => (!choice.refused,if choice.refused then disk else disk.putMarker index [])
  | choice,disk,.writeMarker index inputs =>
    (!choice.refused,disk.putMarker index (if choice.refused then inputs.take choice.torn else inputs))
  | choice,disk,.syncMarker _ => (!choice.refused,disk)
  | choice,disk,.clock => (choice.now,disk)
  | _,disk,.ack rec => ((),{disk with acked := rec::disk.acked})

/-- A crash leaves of every file the durable part and perhaps more, and of names no directory fsync
covered any. -/
def crash (disk : JournalDisk α) (kept : JournalFile → Option Nat) : JournalDisk α :=
  {disk with
    files := disk.files.filterMap fun entry => match kept entry.1,entry.2.linked with
      | none,false => none
      | bytes,_ => some (entry.1,entry.2.cut (bytes.getD 0))}

end JournalDisk

/-- The process that owns the journal. It compacts once before it takes the first record. -/
inductive JournalProcess where
  | down
  | starting (writer : Writer)
  | running (writer : Writer)
  deriving DecidableEq, Repr

inductive JournalEvent where
  | boot (choices : List DiskChoice)
  | start (choices : List DiskChoice)
  | append (rec : JournalRecord) (wanted : Bool) (choices : List DiskChoice)
  | sync (choices : List DiskChoice)
  | compact (choices : List DiskChoice)
  | crash (kept : JournalFile → Option Nat)

/-- The records handed to the writers so far, and what the last boot folded beside the records
acknowledged before it. -/
structure JournalSystem (α : Type) where
  disk : JournalDisk α := {}
  process : JournalProcess := .down
  appended : List JournalRecord := []
  booted : Option (Fold × List JournalRecord) := none
  deriving DecidableEq, Repr

namespace JournalSystem
variable {α : Type} [DecidableEq α] (codec : Codec α) (cfg : JournalConfig)

def after : Option (Except JournalFault Unit × Writer) → JournalProcess
  | some (_,writer) => .running writer
  | none => .down

def perform (system : JournalSystem α) (writer : Writer) (method : JournalMethod α Writer Unit)
    (choices : List DiskChoice) : JournalSystem α :=
  let out := (method writer).run (JournalDisk.reply codec) choices system.disk
  {system with disk := out.2,process := after out.1}

def boot (system : JournalSystem α) (choices : List DiskChoice) : JournalSystem α :=
  let out := (Journal.openJournal codec cfg ()).run (JournalDisk.reply codec) choices system.disk
  match out.1 with
  | some (.ok (writer,fold),_) =>
    {system with
      disk := out.2
      process := .starting writer
      booted := some (fold,system.disk.acked)}
  | _ => {system with disk := out.2}

def step (system : JournalSystem α) : JournalEvent → JournalSystem α
  | .boot choices => match system.process with
    | .down => system.boot codec cfg choices
    | _ => system
  | .start choices => match system.process with
    | .starting writer => system.perform codec writer (Writer.compact codec cfg false) choices
    | _ => system
  | .append rec wanted choices => match system.process with
    | .running writer =>
      {system with appended := rec::system.appended}.perform codec writer
        (Writer.handleAppend codec cfg rec wanted) choices
    | _ => system
  | .sync choices => match system.process with
    | .running writer => system.perform codec writer (do let _ ← Writer.sync; return ()) choices
    | _ => system
  | .compact choices => match system.process with
    | .running writer => system.perform codec writer (Writer.forceCompaction codec cfg) choices
    | _ => system
  | .crash kept => {system with disk := system.disk.crash kept,process := .down}

end JournalSystem

open Lib.Keyed List Option

namespace Codec
variable (codec : Codec α)

@[simp] lemma text_nil : codec.text [] = [] := rfl

lemma text_append (first rest) : codec.text (first ++ rest) = codec.text first ++ codec.text rest := flatMap_append

lemma text_singleton (rec) : codec.text [rec] = codec.line rec :=
  append_nil _

def scan : List (List α) → List JournalRecord × Bool
  | [] => ([],false)
  | line::rest =>
    if codec.blank line then scan rest
    else match codec.parse line with
      | some rec => (rec::(scan rest).1,(scan rest).2)
      | none => ([],true)

lemma foldLines_eq (fold lines) :
    Journal.foldLines codec fold lines = (fold.all (codec.scan lines).1,(codec.scan lines).2) := by
  induction lines generalizing fold with
  | nil => rfl
  | cons line rest ih =>
    unfold Journal.foldLines scan
    split
    · exact ih fold
    · cases codec.parse line with
      | none => rfl
      | some rec => exact ih (fold.apply rec)

lemma eq_line_of_ends {rec : JournalRecord} {part : List α} (within : part <+: codec.line rec)
    (ends : part.getLast? = some codec.newline) : part = codec.line rec := by
  rcases prefix_concat_iff.mp within with whole | inside
  · exact whole
  · have last : codec.newline ∈ part := mem_of_getLast? ends
    exact absurd (inside.subset last) (codec.newline_not_mem rec)

lemma text_of_ends {recs : List JournalRecord} {part : List α}
    (within : part <+: codec.text recs) (ends : part = [] ∨ part.getLast? = some codec.newline) :
    ∃ count, part = codec.text (recs.take count) := by
  induction recs generalizing part with
  | nil => exact ⟨0,by simpa using within⟩
  | cons rec recs ih =>
    have whole : codec.text (rec::recs) = codec.line rec ++ codec.text recs := by simp [text]
    rcases ends with rfl | ends
    · exact ⟨0,rfl⟩
    rcases le_total part.length (codec.line rec).length with short | long
    · have inside := prefix_of_prefix_length_le within (prefix_append _ _) short
      exact ⟨1,by simp [codec.eq_line_of_ends inside ends,text_singleton]⟩
    · obtain ⟨rest,rfl⟩ := prefix_of_prefix_length_le (prefix_append _ _) within long
      have more : rest <+: codec.text recs := (prefix_append_right_inj _).mp within
      have last : rest = [] ∨ rest.getLast? = some codec.newline := by
        rcases eq_nil_or_concat rest with rfl | ⟨front,last,rfl⟩
        · exact .inl rfl
        · right
          simpa using ends
      obtain ⟨count,rfl⟩ := ih more last
      exact ⟨count+1,by simp [text]⟩

variable [DecidableEq α]

lemma lines_append (text) (single : codec.newline ∉ text) :
    codec.lines (text ++ codec.newline::rest) = text::codec.lines rest := by
  induction text with
  | nil => simp [lines]
  | cons char text ih =>
    have plain : char ≠ codec.newline := fun same => single (same ▸ mem_cons_self)
    have later : codec.newline ∉ text := fun mem => single (mem_cons_of_mem _ mem)
    simp only [cons_append,lines,if_neg plain,ih later]

lemma scan_line (rec) :
    codec.scan (codec.lines (codec.line rec ++ rest)) =
      (rec::(codec.scan (codec.lines rest)).1,(codec.scan (codec.lines rest)).2) := by
  have split : codec.line rec ++ rest = codec.render rec ++ codec.newline::rest := by simp [line]
  rw [split,codec.lines_append _ (codec.newline_not_mem rec)]
  simp only [scan,codec.render_not_blank,codec.parse_render,Bool.false_eq_true,if_false]

variable (recs : List JournalRecord)

lemma scan_text (rest) :
    codec.scan (codec.lines (codec.text recs ++ rest)) =
      (recs ++ (codec.scan (codec.lines rest)).1,(codec.scan (codec.lines rest)).2) := by
  induction recs with
  | nil => rfl
  | cons rec recs ih =>
    have split : codec.text (rec::recs) ++ rest = codec.line rec ++ (codec.text recs ++ rest) := by simp [text]
    rw [split,scan_line,ih]
    rfl

lemma scan_lines_text : codec.scan (codec.lines (codec.text recs)) = (recs,false) := by
  have read := codec.scan_text recs []
  simpa [lines,scan] using read

end Codec

namespace JournalDisk
variable {disk : JournalDisk α}

lemma find_mem (found : disk.find file = some log) : (file,log) ∈ disk.files := by
  obtain ⟨⟨name,content⟩,there,rfl⟩ := map_eq_some_iff.mp found
  have same : name = file := by simpa using find?_some there
  exact same ▸ mem_of_find?_eq_some there

variable (change : LogFile α → LogFile α) (kept : JournalFile → Option Nat)

lemma find_mapWhere (chosen : JournalFile → Prop) [DecidablePred chosen] (file) :
    ({disk with files := disk.files.map fun entry => if chosen entry.1 then (entry.1,change entry.2) else entry} :
      JournalDisk α).find file = if chosen file then (disk.find file).map change else disk.find file := by
  unfold find
  rw [find?_map]
  have names : ((fun entry : JournalFile × LogFile α => decide (entry.1 = file)) ∘
      fun entry => if chosen entry.1 then (entry.1,change entry.2) else entry) =
      fun entry => decide (entry.1 = file) := by
    funext entry
    dsimp only [Function.comp]
    by_cases chosen entry.1 <;> simp [*]
  rw [names]
  cases found : disk.files.find? fun entry => entry.1 = file with
  | none => simp
  | some entry =>
    have same : entry.1 = file := by simpa using find?_some found
    by_cases chosen file <;> simp [*]

lemma find_update :
    (disk.update file change).find other = if other = file then (disk.find other).map change else disk.find other :=
  find_mapWhere change (· = file) other

lemma find_syncDir (dir : JournalDir) :
    (disk.syncDir dir).find file = if file.dir = dir then (disk.find file).map LogFile.link else disk.find file :=
  find_mapWhere _ (·.dir = dir) file

lemma find_remove : (disk.remove file).find other = if other = file then none else disk.find other := by
  unfold find remove
  rw [find?_filter]
  split
  · next same =>
    subst same
    simp
  · next apart =>
    congr 2
    funext entry
    by_cases same : entry.1 = other <;> simp [same,apart]

lemma find_put (log) : (disk.put file log).find other = if other = file then some log else disk.find other := by
  have removed := @find_remove α disk file other
  unfold find at removed ⊢
  unfold put
  rw [find?_append]
  split
  · next same =>
    subst same
    rw [if_pos rfl,map_eq_none_iff] at removed
    simp [removed]
  · next apart =>
    rw [if_neg apart] at removed
    rw [← removed]
    cases (disk.remove file).files.find? fun entry => entry.1 = other <;> simp [Ne.symm apart]

def survivor (kept : JournalFile → Option Nat) (entry : JournalFile × LogFile α) : Option (JournalFile × LogFile α) :=
  match kept entry.1,entry.2.linked with
  | none,false => none
  | bytes,_ => some (entry.1,entry.2.cut (bytes.getD 0))

lemma crash_files : (disk.crash kept).files = disk.files.filterMap (survivor kept) := rfl

lemma survivor_eq {kept : JournalFile → Option Nat} {entry left : JournalFile × LogFile α}
    (stays : survivor kept entry = some left) : left = (entry.1,entry.2.cut ((kept entry.1).getD 0)) := by
  unfold survivor at stays
  split at stays
  · cases stays
  · exact (Option.some.inj stays).symm

lemma survivor_linked {log : LogFile α} (linked : log.linked = true) :
    survivor kept (file,log) = some (file,log.cut ((kept file).getD 0)) := by
  unfold survivor
  simp only [linked]
  cases kept file <;> rfl

lemma find_crash {log : LogFile α} (found : disk.find file = some log) (linked : log.linked = true) :
    (disk.crash kept).find file = some (log.cut ((kept file).getD 0)) := by
  unfold find at found ⊢
  rw [crash_files]
  generalize disk.files = files at found
  induction files with
  | nil => cases found
  | cons entry rest ih =>
    by_cases same : entry.1 = file
    · rw [find?_cons_of_pos (by simpa using same)] at found
      obtain rfl : entry = (file,log) := Prod.ext same (Option.some.inj found)
      rw [filterMap_cons_some (survivor_linked kept linked)]
      simp
    · rw [find?_cons_of_neg (by simpa using same)] at found
      cases stays : survivor kept entry with
      | none => rw [filterMap_cons_none stays,ih found]
      | some left =>
        rw [filterMap_cons_some stays,find?_cons_of_neg]
        · exact ih found
        · rw [survivor_eq stays]
          simpa using same

end JournalDisk

open Act

structure DiskChoice.Calm (choice : DiskChoice) : Prop where
  readable : choice.unreadable = false
  through : choice.stops = none
  clean : choice.torn = 0

instance (choice : DiskChoice) : Decidable choice.Calm :=
  decidable_of_iff (choice.unreadable = false ∧ choice.stops = none ∧ choice.torn = 0)
    ⟨fun ⟨readable,through,clean⟩ => ⟨readable,through,clean⟩,
      fun calm => ⟨calm.readable,calm.through,calm.clean⟩⟩

/-- What the environment may do: refuse operations where the code sees it, and keep files from being
unlinked. -/
structure DiskChoice.Steady (choice : DiskChoice) : Prop extends DiskChoice.Calm choice where
  synced : choice.unsynced = false
  removable : choice.sticky = false

instance (choice : DiskChoice) : Decidable choice.Steady :=
  decidable_of_iff (choice.Calm ∧ choice.unsynced = false ∧ choice.sticky = false)
    ⟨fun ⟨calm,synced,removable⟩ => ⟨calm,synced,removable⟩,
      fun steady => ⟨steady.toCalm,steady.synced,steady.removable⟩⟩

namespace JournalDisk
variable [DecidableEq α] (codec : Codec α)

/-- The disk under steady choices. -/
def steadily : Device (JournalRequest α) (JournalAnswer α) {choice : DiskChoice // choice.Steady} (JournalDisk α) :=
  fun choice => reply codec choice.1

variable (choice : {choice : DiskChoice // choice.Steady}) (disk : JournalDisk α) (index : Nat)

@[simp] lemma steadily_syncDir (dir) : steadily codec choice disk (.syncDir dir) = ((),disk.syncDir dir) := by
  simp [steadily,reply,choice.2.synced]

@[simp] lemma steadily_removeMarker :
    steadily codec choice disk (.removeMarker index) = ((),disk.removeMarker index) := by
  simp [steadily,reply,choice.2.removable]

@[simp] lemma steadily_leftovers :
    steadily codec choice disk .leftovers =
      (some (disk.temporaries.map Prod.fst,disk.markers.map Prod.fst),disk) := by
  simp [steadily,reply,choice.2.readable]

@[simp] lemma steadily_readMarker :
    steadily codec choice disk (.readMarker index) = (disk.marker index,disk) := by
  simp [steadily,reply,choice.2.readable]

@[simp] lemma steadily_segments :
    steadily codec choice disk .segments = (disk.indexes JournalFile.segmentIndex?,disk) := by
  simp [steadily,reply,choice.2.readable]

@[simp] lemma steadily_generations :
    steadily codec choice disk .generations = (disk.indexes JournalFile.generationIndex?,disk) := by
  simp [steadily,reply,choice.2.readable]

@[simp] lemma steadily_read :
    steadily codec choice disk (.read file) =
      ((disk.find file).map fun log => (codec.lines log.content,false),disk) := by
  simp [steadily,reply,readFile,choice.2.readable,choice.2.through]

@[simp] lemma steadily_write (bytes) :
    steadily codec choice disk (.write index bytes) =
      (!choice.1.refused,
        disk.update (.segment index) (LogFile.extend (if choice.1.refused then [] else bytes))) := by
  simp [steadily,reply,choice.2.clean]

@[simp] lemma steadily_writeTemporary (bytes) :
    steadily codec choice disk (.writeTemporary index bytes) =
      (!choice.1.refused,disk.updateTemporary index (LogFile.extend (if choice.1.refused then [] else bytes))) := by
  simp [steadily,reply,choice.2.clean]

@[simp] lemma steadily_writeMarker (inputs) :
    steadily codec choice disk (.writeMarker index inputs) =
      (!choice.1.refused,disk.putMarker index (if choice.1.refused then [] else inputs)) := by
  simp [steadily,reply,choice.2.clean]

def contents (disk : JournalDisk α) (file : JournalFile) : List JournalRecord :=
  (disk.find file).elim [] fun log => (codec.scan (codec.lines log.content)).1

def Legible (disk : JournalDisk α) : Prop :=
  ∀ file log, disk.find file = some log → (codec.scan (codec.lines log.content)).2 = false

end JournalDisk

namespace Journal
open JournalDisk
variable [DecidableEq α] {codec : Codec α} {disk : JournalDisk α}

lemma ensures_ask :
    (ask op : JournalMethod α σ _).Ensures (steadily codec) safe post state disk ↔
    safe disk ∧
      ∀ choice, post (.ok (steadily codec choice disk op).1) state (steadily codec choice disk op).2 := Iff.rfl

lemma ensures_demand_bind (yes : refused = false → (rest ()).Ensures (steadily codec) safe post state disk)
    (no : refused = true → post (.error .refused) state disk) :
    (demand (!refused) >>= rest).Ensures (steadily codec) safe post state disk := by
  cases refused with
  | true => exact no rfl
  | false => exact yes rfl

section
variable (legible : disk.Legible codec) {post : Except JournalFault Fold → σ → JournalDisk α → Prop}
include legible

variable {files : List JournalFile}

lemma readInto_ensures (kept : safe disk) (read : post (.ok (fold.all (disk.contents codec file))) state disk) :
    (readInto codec file fold : JournalMethod α σ Fold).Ensures (steadily codec) safe post state disk := by
  unfold readInto
  rw [ensures_bind,ensures_ask]
  refine ⟨kept,fun choice => ?_⟩
  simp only [steadily_read]
  cases found : disk.find file with
  | none =>
    simp only [contents,found,elim_none,Fold.all_nil] at read
    exact read
  | some log =>
    simp only [contents,found,elim_some] at read
    simp only [map_some,codec.foldLines_eq,legible file log found,Bool.or_false]
    exact read

lemma readAll_ensures (kept : safe disk)
    (read : post (.ok (fold.all (files.flatMap (disk.contents codec)))) state disk) :
    (readAll codec files fold : JournalMethod α σ Fold).Ensures (steadily codec) safe post state disk := by
  induction files generalizing fold with
  | nil => exact read
  | cons file rest ih =>
    rw [List.flatMap_cons,Fold.all_append] at read
    unfold readAll
    rw [ensures_bind]
    exact readInto_ensures legible kept (ih read)

lemma readUntilFull_ensures (kept : safe disk)
    (read : ∀ folded : Fold, (folded.statements.length < cfg.maxRecords →
          folded = fold.all (files.flatMap (disk.contents codec))) → post (.ok folded) state disk) :
    (readUntilFull codec cfg files fold : JournalMethod α σ Fold).Ensures (steadily codec) safe post
      state disk := by
  induction files generalizing fold with
  | nil => exact read fold fun _ => rfl
  | cons file rest ih =>
    rw [List.flatMap_cons] at read
    unfold readUntilFull
    split
    · next full => exact read fold fun short => absurd short (not_lt.mpr full)
    · rw [ensures_bind]
      apply readInto_ensures legible kept
      apply ih
      intro folded whole
      apply read
      rwa [Fold.all_append]

lemma replay_ensures (kept : safe disk)
    (read : ∀ folded : Fold, (folded.statements.length < cfg.maxRecords →
          folded =
            ({} : Fold).all ((newestFirst (disk.indexes JournalFile.segmentIndex?)
                  (disk.indexes JournalFile.generationIndex?)).flatMap (disk.contents codec))) →
        post (.ok folded) state disk) :
    (replay codec cfg : JournalMethod α σ Fold).Ensures (steadily codec) safe post state disk := by
  unfold replay
  refine ⟨kept,fun _ => ?_⟩
  simp only [steadily_segments]
  refine ⟨kept,fun _ => ?_⟩
  simp only [steadily_generations]
  exact readUntilFull_ensures legible kept read

end

end Journal
end Oxidant.History
