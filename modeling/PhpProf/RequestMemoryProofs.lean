import PhpProf.FuncProofs
import PhpProf.ReportProofs
import PhpProf.RequestMemory
import PhpProf.RequestProofs
import PhpProf.Succeeds

/-! What the pointers of a request stand for, and who frees them. Blocks and
strings that a function holds for itself are listed before those that the globals
hold; every function returns with its own list empty, on every path, and so none
meets a dead block. -/
namespace PhpProf.RequestMemoryProofs
open ProfMemory PointerTable

variable {engine : Engine} {memory : ProfMemory} {globals : ProfGlobals}
  {blocks strings : List Nat} {ptr : Nat}

/-! ## Owners and meaning -/

/-- The blocks that the globals point to. -/
def globalBlocks (memory : ProfMemory) : List Nat :=
  memory.errors ++ pointers memory.funcUnits ++ pointers memory.opcodeTimings

/-- The strings that the globals hold, as keys of their tables. -/
def globalStrings (memory : ProfMemory) : List Nat :=
  keyReferences memory.funcUnits ++ keyReferences memory.opcodeTimings

/-- Read through its pointers, the memory is that of the globals, as far as the
mode uses them. The table of another mode is empty. -/
structure Represents (memory : ProfMemory) (globals : ProfGlobals) : Prop where
  config : memory.config = globals.config
  errors : memory.errors.map memory.heap.cells =
    globals.errors.map fun error => some (.error error)
  startUnits : globals.config.mode = .func → memory.funcStartUnits = globals.funcStartUnits
  funcUnits : globals.config.mode = .func →
    Stores memory.heap.cells Block.funcUnit memory.funcUnits globals.funcUnits
  lastFile : memory.opcodeLastFile = globals.opcodeLastFile
  lastLineno : memory.opcodeLastLineno = globals.opcodeLastLineno
  lastTime : memory.opcodeLastTime = globals.opcodeLastTime
  timings : globals.config.mode = .opcode →
    Stores memory.heap.cells Block.fileTimings memory.opcodeTimings globals.opcodeTimings
  idleUnits : globals.config.mode ≠ .func → memory.funcUnits = .empty
  idleTimings : globals.config.mode ≠ .opcode → memory.opcodeTimings = .empty

/-- The memory of a function at work: some blocks and strings are its own, the
globals hold the others, and nothing else is live. -/
structure Shows (memory : ProfMemory) (blocks strings : List Nat) (globals : ProfGlobals) :
    Prop where
  owns : memory.heap.Owns (blocks ++ globalBlocks memory)
  held : memory.strings.Held (strings ++ globalStrings memory)
  represents : Represents memory globals

/-- Only the cells that the globals point to matter to them. -/
theorem Represents.frame (represents : Represents memory globals) {heap : Heap Block}
    (strings : References Nat)
    (same : ∀ ptr ∈ globalBlocks memory, heap.cells ptr = memory.heap.cells ptr) :
    Represents { memory with heap, strings } globals where
  config := represents.config
  errors := by
    rw [← represents.errors]
    refine List.map_congr_left fun ptr member => same ptr ?_
    exact List.mem_append_left _ (List.mem_append_left _ member)
  startUnits := represents.startUnits
  funcUnits := fun mode => (represents.funcUnits mode).frame fun ptr member =>
    same ptr (List.mem_append_left _ (List.mem_append_right _ member))
  lastFile := represents.lastFile
  lastLineno := represents.lastLineno
  lastTime := represents.lastTime
  timings := fun mode => (represents.timings mode).frame fun ptr member =>
    same ptr (List.mem_append_right _ member)
  idleUnits := represents.idleUnits
  idleTimings := represents.idleTimings

/-! ## Allocating and freeing -/

theorem Shows.emalloc (shows : Shows memory blocks strings globals) (block : Block) :
    Shows (memory.emalloc block) (memory.heap.next :: blocks) strings globals where
  owns := shows.owns.alloc_first block
  held := shows.held
  represents := shows.represents.frame memory.strings fun ptr member =>
    shows.owns.cells_alloc block ptr (List.mem_append_right _ member)

theorem unitAt_eq {unit : ProfUnit} (stored : memory.heap.cells ptr = some (.unit unit)) :
    memory.unitAt ptr = some unit := by
  rw [unitAt, stored]
  rfl

theorem funcUnitAt_eq {funcUnit : ProfFuncUnit}
    (stored : memory.heap.cells ptr = some (.funcUnit funcUnit)) :
    memory.funcUnitAt ptr = some funcUnit := by
  rw [funcUnitAt, stored]
  rfl

theorem errorAt_eq {error : ProfError} (stored : memory.heap.cells ptr = some (.error error)) :
    memory.errorAt ptr = some error := by
  rw [errorAt, stored]
  rfl

theorem fileTimingsAt_eq {lines : OrderedTable UInt32 ℚ}
    (stored : memory.heap.cells ptr = some (.fileTimings lines)) :
    memory.fileTimingsAt ptr = some lines := by
  rw [fileTimingsAt, stored]
  rfl

/-- A reading of a function's own is written. -/
theorem Shows.writeUnit (shows : Shows memory (ptr :: blocks) strings globals)
    {reading : ProfUnit} (stored : memory.heap.cells ptr = some (.unit reading))
    (change : ProfUnit → ProfUnit) :
    ∃ after, memory.writeUnit ptr change = some after ∧
      after.heap.cells ptr = some (.unit (change reading)) ∧
      Shows after (ptr :: blocks) strings globals := by
  refine ⟨_, by rw [ProfMemory.writeUnit, unitAt_eq stored]; rfl, ?_, ?_⟩
  · simp [Heap.modify, stored, Block.setUnit]
  · refine ⟨shows.owns.modify ptr _, shows.held, ?_⟩
    exact shows.represents.frame memory.strings fun other member =>
      shows.owns.cells_modify _ other (List.mem_append_right _ member)

theorem efree_eq {block : Block} (live : memory.heap.cells ptr = some block) :
    memory.efree ptr = some { memory with heap := memory.heap.free ptr } := by
  rw [ProfMemory.efree, live]
  rfl

theorem Shows.efree (shows : Shows memory (ptr :: blocks) strings globals) :
    Succeeds (memory.efree ptr) fun after => Shows after blocks strings globals := by
  obtain ⟨block, live⟩ := shows.owns.read (List.mem_cons_self ..)
  refine ⟨_, efree_eq live, shows.owns.free, shows.held, ?_⟩
  exact shows.represents.frame memory.strings fun other member =>
    shows.owns.cells_free other (List.mem_append_right _ member)

theorem Shows.addref (shows : Shows memory blocks strings globals) (addr : Nat) :
    Shows (memory.addref addr) blocks (addr :: strings) globals where
  owns := shows.owns
  held := shows.held.take_first addr
  represents := shows.represents.frame _ fun _ _ => rfl

theorem Shows.release {addr : Nat} (shows : Shows memory blocks (addr :: strings) globals) :
    Succeeds (memory.release addr) fun after => Shows after blocks strings globals := by
  have outstanding := shows.held.outstanding
  refine ⟨_, if_pos outstanding, shows.owns, shows.held.release, ?_⟩
  exact shows.represents.frame _ fun _ _ => rfl

/-- A block of a function's own joins the error list. -/
theorem Shows.keepError (shows : Shows memory (ptr :: blocks) strings globals) {error : ProfError}
    (stored : memory.heap.cells ptr = some (.error error)) :
    Shows { memory with errors := memory.errors ++ [ptr] } blocks strings
      { globals with errors := globals.errors ++ [error] } where
  owns := by
    refine shows.owns.perm (List.perm_iff_count.mpr fun other => ?_)
    simp only [globalBlocks, List.cons_append, List.count_append, List.count_cons, List.count_nil]
    omega
  held := shows.held
  represents :=
    { shows.represents with
      errors := by
        rw [List.map_append, List.map_append, shows.represents.errors, List.map_singleton, stored,
          List.map_singleton] }

theorem Shows.addErrorMessage (shows : Shows memory blocks strings globals)
    (level : ProfErrorLevel) (message : String) :
    Shows (memory.profAddErrorMessage level message) blocks strings
      (PhpProf.profAddErrorMessage globals level message) :=
  (shows.emalloc (.error ⟨level, message⟩)).keepError (Function.update_self ..)

/-- So does a block, with a reference to its key, the table of units. -/
theorem Shows.keepFuncUnit {addr : Nat}
    (shows : Shows memory (ptr :: blocks) (addr :: strings) globals)
    (mode : globals.config.mode = .func) {name : Bytes}
    (missing : memory.funcUnits.find? name = none) {funcUnit : ProfFuncUnit}
    (stored : memory.heap.cells ptr = some (.funcUnit funcUnit)) :
    Shows { memory with funcUnits := memory.funcUnits.add name ⟨addr, ptr⟩ } blocks strings
      { globals with funcUnits := globals.funcUnits.add name funcUnit } where
  owns := by
    refine shows.owns.perm (List.perm_iff_count.mpr fun other => ?_)
    simp only [globalBlocks, pointers_add missing, List.cons_append, List.count_append,
      List.count_cons, List.count_nil]
    omega
  held := by
    refine shows.held.perm (List.perm_iff_count.mpr fun other => ?_)
    simp only [globalStrings, keyReferences_add missing, List.cons_append, List.count_append,
      List.count_cons, List.count_nil]
    omega
  represents :=
    { shows.represents with
      funcUnits := fun _ => (shows.represents.funcUnits mode).add name stored
      idleUnits := fun idle => absurd mode idle }

/-- And the table of line tables. -/
theorem Shows.keepTimings {addr : Nat}
    (shows : Shows memory (ptr :: blocks) (addr :: strings) globals)
    (mode : globals.config.mode = .opcode) {name : Bytes}
    (missing : memory.opcodeTimings.find? name = none) {lines : OrderedTable UInt32 ℚ}
    (stored : memory.heap.cells ptr = some (.fileTimings lines)) :
    Shows { memory with opcodeTimings := memory.opcodeTimings.add name ⟨addr, ptr⟩ } blocks strings
      { globals with opcodeTimings := globals.opcodeTimings.add name lines } where
  owns := by
    refine shows.owns.perm (List.perm_iff_count.mpr fun other => ?_)
    simp only [globalBlocks, pointers_add missing, List.cons_append, List.count_append,
      List.count_cons, List.count_nil]
    omega
  held := by
    refine shows.held.perm (List.perm_iff_count.mpr fun other => ?_)
    simp only [globalStrings, keyReferences_add missing, List.cons_append, List.count_append,
      List.count_cons, List.count_nil]
    omega
  represents :=
    { shows.represents with
      timings := fun _ => (shows.represents.timings mode).add name stored
      idleTimings := fun idle => absurd mode idle }

/-! ## Writing through the tables -/

/-- A write to a unit changes no error and no line table. -/
theorem Shows.writeFuncUnit (shows : Shows memory blocks strings globals) {name : Bytes}
    {bucket : Bucket} (mode : globals.config.mode = .func)
    (found : memory.funcUnits.find? name = some bucket) (step : ProfFuncUnit → ProfFuncUnit) :
    Succeeds (memory.writeFuncUnit bucket.ptr step) fun after =>
      Shows after blocks strings
        { globals with funcUnits := globals.funcUnits.modify name step } := by
  have pointed := mem_pointers found
  obtain ⟨-, once, -⟩ := List.nodup_append.mp shows.owns.once
  obtain ⟨once, -, fromTimings⟩ := List.nodup_append.mp once
  obtain ⟨-, single, fromErrors⟩ := List.nodup_append.mp once
  obtain ⟨funcUnit, -, stored⟩ := (shows.represents.funcUnits mode).read found
  refine ⟨_, by rw [ProfMemory.writeFuncUnit, funcUnitAt_eq stored]; rfl, ?_⟩
  refine ⟨shows.owns.modify _ _, shows.held, ?_⟩
  exact
    { shows.represents with
      errors := by
        rw [← shows.represents.errors]
        exact List.map_congr_left fun other member =>
          Function.update_of_ne (fromErrors other member _ pointed) _ _
      funcUnits := fun mode =>
        (shows.represents.funcUnits mode).modify single found fun _ => rfl
      timings := fun mode => (shows.represents.timings mode).frame fun other member =>
        Function.update_of_ne
          (fromTimings _ (List.mem_append_right _ pointed) other member).symm _ _ }

/-- A write to a line table changes no error and no unit. -/
theorem Shows.writeTimings (shows : Shows memory blocks strings globals) {name : Bytes}
    {bucket : Bucket} (mode : globals.config.mode = .opcode)
    (found : memory.opcodeTimings.find? name = some bucket)
    (step : OrderedTable UInt32 ℚ → OrderedTable UInt32 ℚ) :
    Succeeds (memory.writeFileTimings bucket.ptr step) fun after =>
      Shows after blocks strings
        { globals with opcodeTimings := globals.opcodeTimings.modify name step } := by
  have pointed := mem_pointers found
  obtain ⟨-, once, -⟩ := List.nodup_append.mp shows.owns.once
  obtain ⟨-, single, fromOthers⟩ := List.nodup_append.mp once
  obtain ⟨lines, -, stored⟩ := (shows.represents.timings mode).read found
  refine ⟨_, by rw [ProfMemory.writeFileTimings, fileTimingsAt_eq stored]; rfl, ?_⟩
  refine ⟨shows.owns.modify _ _, shows.held, ?_⟩
  exact
    { shows.represents with
      errors := by
        rw [← shows.represents.errors]
        exact List.map_congr_left fun other member =>
          Function.update_of_ne (fromOthers other (List.mem_append_left _ member) _ pointed) _ _
      funcUnits := fun mode => (shows.represents.funcUnits mode).frame fun other member =>
        Function.update_of_ne (fromOthers other (List.mem_append_right _ member) _ pointed) _ _
      timings := fun mode =>
        (shows.represents.timings mode).modify single found fun _ => rfl }

/-! ## `func.c` -/

/-- `get_prof_unit` hands over one block with its readings, or none. -/
theorem Shows.getProfUnit (shows : Shows memory blocks strings globals) (clocks : UnitClocks) :
    (∃ after, memory.getProfUnit clocks = some (after, none) ∧
      PhpProf.getProfUnit clocks = none ∧ Shows after blocks strings globals) ∨
    ∃ after unit reading, memory.getProfUnit clocks = some (after, some unit) ∧
      PhpProf.getProfUnit clocks = some reading ∧
      after.heap.cells unit = some (.unit reading) ∧
      Shows after (unit :: blocks) strings globals := by
  have started := shows.emalloc (.unit ⟨0, 0, 0⟩)
  have zeroed : (memory.emalloc (.unit ⟨0, 0, 0⟩)).heap.cells memory.heap.next =
      some (.unit ⟨0, 0, 0⟩) := Function.update_self ..
  unfold ProfMemory.getProfUnit PhpProf.getProfUnit
  cases clocks.monotonicRaw with
  | none =>
    obtain ⟨after, freed, failed⟩ := started.efree
    exact .inl ⟨after, by simp [freed], rfl, failed⟩
  | some wall =>
    obtain ⟨walled, writtenWall, storedWall, started⟩ := started.writeUnit zeroed
      fun unit => { unit with wall := wall.microseconds }
    cases clocks.processCputime with
    | none =>
      obtain ⟨after, freed, failed⟩ := started.efree
      exact .inl ⟨after, by simp [writtenWall, freed], rfl, failed⟩
    | some cpu =>
      obtain ⟨timed, writtenCpu, storedCpu, started⟩ := started.writeUnit storedWall
        fun unit => { unit with cpu := cpu.microseconds }
      obtain ⟨after, writtenMemory, stored, working⟩ := started.writeUnit storedCpu
        fun unit => { unit with memory := clocks.memoryUsage }
      exact .inr ⟨after, _, _, by simp [writtenWall, writtenCpu, writtenMemory], rfl, stored,
        working⟩

theorem observerBegin_shows (shows : Shows memory [] [] globals) (clocks : UnitClocks) :
    Succeeds (memory.profObserverBegin clocks) fun after =>
      Shows after [] [] (PhpProf.profObserverBegin globals clocks) := by
  unfold ProfMemory.profObserverBegin PhpProf.profObserverBegin
  rcases shows.getProfUnit clocks with
    ⟨after, read, none, failed⟩ | ⟨after, unit, reading, read, some, stored, working⟩
  · rw [read, none]
    exact .intro (failed.addErrorMessage _ _)
  · rw [read, some]
    have pushed : Shows { after with funcStartUnits := reading :: after.funcStartUnits } [unit] []
        { globals with funcStartUnits := reading :: globals.funcStartUnits } := by
      refine ⟨working.owns, working.held, ?_⟩
      exact
        { working.represents with
          startUnits := fun mode => congrArg _ (working.represents.startUnits mode) }
    simp only [Option.bind_eq_bind, Option.bind_some, unitAt_eq stored]
    exact pushed.efree

/-- A unit that is looked up is one of the table's, and a block of the caller's
own is left alone. -/
theorem Shows.lookupFuncUnit (shows : Shows memory (ptr :: blocks) strings globals)
    (mode : globals.config.mode = .func) {reading : ProfUnit}
    (stored : memory.heap.cells ptr = some (.unit reading)) (name : Bytes) (addr : Nat) :
    ∃ after bucket, memory.lookupFuncUnit name addr = (after, bucket.ptr) ∧
      after.funcUnits.find? name = some bucket ∧ after.heap.cells ptr = some (.unit reading) ∧
      Shows after (ptr :: blocks) strings
        { globals with
          funcUnits :=
            match globals.funcUnits.find? name with
            | some _ => globals.funcUnits
            | none => globals.funcUnits.add name ⟨0, 0, 0, 0⟩ } := by
  unfold ProfMemory.lookupFuncUnit
  cases found : memory.funcUnits.find? name with
  | some bucket =>
    obtain ⟨funcUnit, present, -⟩ := (shows.represents.funcUnits mode).read found
    refine ⟨memory, bucket, rfl, found, stored, ?_⟩
    rw [present]
    exact shows
  | none =>
    have missing := (shows.represents.funcUnits mode).missing found
    have created := ((shows.emalloc (.funcUnit ⟨0, 0, 0, 0⟩)).addref addr).keepFuncUnit mode found
      (Function.update_self ..)
    refine ⟨_, ⟨addr, memory.heap.next⟩, rfl, ?_, ?_, ?_⟩
    · have added : (memory.createFuncUnit name addr).funcUnits =
          memory.funcUnits.add name ⟨addr, memory.heap.next⟩ := rfl
      rw [added, OrderedTable.find?_add, if_pos rfl, found, Option.getD_none]
    · have kept := shows.owns.cells_alloc (.funcUnit ⟨0, 0, 0, 0⟩) ptr (by simp)
      exact kept.trans stored
    · rw [missing]
      exact created

theorem observerEnd_shows (shows : Shows memory [] [] globals)
    (mode : globals.config.mode = .func) (func : ZendFunction) (addr : Nat) (clocks : UnitClocks) :
    Succeeds (memory.profObserverEnd engine func addr clocks) fun after =>
      Shows after [] [] (PhpProf.profObserverEnd engine globals func clocks) := by
  unfold ProfMemory.profObserverEnd PhpProf.profObserverEnd
  rcases shows.getProfUnit clocks with
    ⟨after, read, none, failed⟩ | ⟨after, unit, reading, read, some, stored, working⟩
  · rw [read, none]
    exact .intro (failed.addErrorMessage _ _)
  · rw [read, some]
    simp only [getFunctionName_eq, Option.bind_eq_bind, Option.bind_some]
    have named := working.addref addr
    have starts := named.represents.startUnits mode
    cases opened : globals.funcStartUnits with
    | nil =>
      rw [opened] at starts
      rw [starts]
      apply named.efree.bind
      intro freed shown
      apply shown.release.bind
      intro released shown
      exact .intro (shown.addErrorMessage _ _)
    | cons start rest =>
      rw [opened] at starts
      rw [starts]
      have popped : Shows { after.addref addr with funcStartUnits := rest } [unit] [addr]
          { globals with funcStartUnits := rest } :=
        ⟨named.owns, named.held, { named.represents with startUnits := fun _ => rfl }⟩
      obtain ⟨counted, bucket, selected, found, kept, shown⟩ :=
        popped.lookupFuncUnit mode stored (functionName engine func) addr
      simp only [selected, unitAt_eq kept, Option.bind_some]
      apply (shown.writeFuncUnit mode found _).bind
      intro charged shown
      apply shown.efree.bind
      intro freed shown
      exact shown.release

/-! ## `opcode.c` -/

theorem Shows.lookupFileTimings (shows : Shows memory blocks strings globals)
    (mode : globals.config.mode = .opcode) (filename : ZendString) :
    ∃ after bucket, memory.lookupFileTimings filename = (after, bucket.ptr) ∧
      after.opcodeTimings.find? filename.val = some bucket ∧
      Shows after blocks strings
        { globals with opcodeTimings := globals.opcodeTimings.add filename.val .empty } := by
  unfold ProfMemory.lookupFileTimings
  cases found : memory.opcodeTimings.find? filename.val with
  | some bucket =>
    obtain ⟨lines, present, -⟩ := (shows.represents.timings mode).read found
    have kept : globals.opcodeTimings.add filename.val .empty = globals.opcodeTimings :=
      OrderedTable.add_of_mem _ ((OrderedTable.mem_keys_iff _).mpr ⟨lines, present⟩)
    refine ⟨memory, bucket, rfl, found, ?_⟩
    rw [kept]
    exact shows
  | none =>
    have created := ((shows.emalloc (.fileTimings .empty)).addref filename.addr).keepTimings mode
      found (Function.update_self ..)
    refine ⟨_, ⟨filename.addr, memory.heap.next⟩, rfl, ?_, created⟩
    have added : (memory.createFileTimings filename).opcodeTimings =
        memory.opcodeTimings.add filename.val ⟨filename.addr, memory.heap.next⟩ := rfl
    rw [added, OrderedTable.find?_add, if_pos rfl, found, Option.getD_none]

/-- The position and the time of the last opcode point to nothing. -/
theorem Shows.moveTo (shows : Shows memory blocks strings globals) (lastFile : Option Nat)
    (lastLineno : UInt32) (lastTime : UInt64) :
    Shows
      { memory with
        opcodeLastFile := lastFile
        opcodeLastLineno := lastLineno
        opcodeLastTime := lastTime } blocks strings
      { globals with
        opcodeLastFile := lastFile
        opcodeLastLineno := lastLineno
        opcodeLastTime := lastTime } where
  owns := shows.owns
  held := shows.held
  represents := { shows.represents with lastFile := rfl, lastLineno := rfl, lastTime := rfl }

theorem opcodeHandler_shows (shows : Shows memory [] [] globals)
    (mode : globals.config.mode = .opcode) (event : OpcodeEvent) :
    Succeeds (memory.profOpcodeHandlerCountTimings event) fun after =>
      Shows after [] [] (PhpProf.profOpcodeHandlerCountTimings globals event) := by
  unfold ProfMemory.profOpcodeHandlerCountTimings PhpProf.profOpcodeHandlerCountTimings
  rw [shows.represents.lastFile, shows.represents.lastLineno]
  split
  · have first := shows.moveTo (some event.filename.addr) event.lineno (getTime event.clock)
    dsimp only
    split
    · exact .intro (first.addErrorMessage _ _)
    · exact .intro first
  · split
    · exact .intro shows
    · by_cases silent : getTime event.clock = 0
      · simp only [silent, ↓reduceIte]
        exact .intro (shows.addErrorMessage _ _)
      · simp only [silent, ↓reduceIte]
        obtain ⟨after, bucket, selected, found, shown⟩ :=
          shows.lookupFileTimings mode event.filename
        rw [selected]
        dsimp only
        rw [shown.represents.lastTime, shown.represents.lastLineno]
        apply (shown.writeTimings mode found _).bind
        intro written shown
        exact .intro (shown.moveTo _ _ _)

/-! ## Events -/

theorem deliver_shows (shows : Shows memory [] [] globals)
    (unsampled : globals.config.mode ≠ .sampling) (named : NamedEvent) :
    Succeeds (memory.deliver engine named) fun after =>
      Shows after [] [] (PhpProf.deliver engine globals named.event) := by
  obtain ⟨event, addr⟩ := named
  unfold ProfMemory.deliver PhpProf.deliver
  rw [shows.represents.config]
  cases mode : globals.config.mode with
  | sampling => exact absurd mode unsampled
  | none => exact .intro shows
  | func =>
    cases event with
    | observerBegin func clocks =>
      dsimp only
      split
      · exact observerBegin_shows shows clocks
      · exact .intro shows
    | observerEnd func clocks =>
      dsimp only
      split
      · exact observerEnd_shows shows mode func addr clocks
      · exact .intro shows
    | sigprof | opcode => exact .intro shows
  | opcode =>
    cases event with
    | opcode event => exact opcodeHandler_shows shows mode event
    | sigprof | observerBegin | observerEnd => exact .intro shows

/-- Between any two events the globals hold everything that is live, and the
pointers lead to what the globals say. -/
theorem deliverAll_shows (shows : Shows memory [] [] globals)
    (unsampled : globals.config.mode ≠ .sampling) (events : List NamedEvent) :
    Succeeds (memory.deliverAll engine events) fun after =>
      Shows after [] [] (PhpProf.deliverAll engine globals (events.map NamedEvent.event)) := by
  induction events generalizing memory globals with
  | nil => exact .intro shows
  | cons named rest ih =>
    rw [ProfMemory.deliverAll, List.foldlM_cons]
    apply (deliver_shows shows unsampled named).bind
    intro next shown
    apply ih shown
    rwa [RequestProofs.deliver_config]

/-! ## Requests -/

/-- Between two requests nothing is live, and only the position of the last opcode
is left. -/
structure Rests (memory : ProfMemory) (globals : ProfGlobals) : Prop where
  blocks : memory.heap.Released
  strings : memory.strings.Balanced
  config : memory.config = globals.config
  funcUnits : memory.funcUnits = .empty
  timings : memory.opcodeTimings = .empty
  lastFile : memory.opcodeLastFile = globals.opcodeLastFile
  lastLineno : memory.opcodeLastLineno = globals.opcodeLastLineno
  lastTime : memory.opcodeLastTime = globals.opcodeLastTime

theorem fresh_rests (config : ProfConfig) : Rests (.fresh config) (.fresh config) where
  blocks := fun ptr below => absurd below (Nat.not_lt_zero ptr)
  strings := References.balanced_empty
  config := rfl
  funcUnits := rfl
  timings := rfl
  lastFile := rfl
  lastLineno := rfl
  lastTime := rfl

/-- Memory at rest shows globals without errors whose own tables are empty. -/
theorem Rests.shows (rests : Rests memory globals) (noErrors : memory.errors = [])
    (silent : globals.errors = [])
    (func : globals.config.mode = .func →
      memory.funcStartUnits = globals.funcStartUnits ∧ globals.funcUnits = .empty)
    (opcode : globals.config.mode = .opcode → globals.opcodeTimings = .empty) :
    Shows memory [] [] globals where
  owns := by
    rw [globalBlocks, noErrors, rests.funcUnits, rests.timings]
    exact rests.blocks.owns
  held := by
    rw [globalStrings, rests.funcUnits, rests.timings]
    exact References.balanced_iff_held.mp rests.strings
  represents :=
    { config := rests.config
      errors := by rw [noErrors, silent]; rfl
      startUnits := fun mode => (func mode).1
      funcUnits := fun mode => by
        rw [rests.funcUnits, (func mode).2]
        exact stores_empty _ _
      lastFile := rests.lastFile
      lastLineno := rests.lastLineno
      lastTime := rests.lastTime
      timings := fun mode => by
        rw [rests.timings, opcode mode]
        exact stores_empty _ _
      idleUnits := fun _ => rests.funcUnits
      idleTimings := fun _ => rests.timings }

theorem rinit_shows (rests : Rests memory globals) (unsampled : globals.config.mode ≠ .sampling)
    {rinit : RinitEnv} {setup : ProfGlobals}
    (started : PhpProf.phpRinit rinit globals = (setup, .success)) :
    setup.config = globals.config ∧
      ∃ after, memory.phpRinit rinit = (after, .success) ∧ Shows after [] [] setup := by
  obtain ⟨blocks, strings, config, units, timings, lastFile, lastLineno, lastTime⟩ := rests
  simp only [PhpProf.phpRinit, PhpProf.profInitErrors] at started
  simp only [ProfMemory.phpRinit, ProfMemory.profInitErrors, config]
  split at started
  · cases started
  · next clock =>
    rw [if_neg clock]
    cases mode : globals.config.mode with
    | sampling => exact absurd mode unsampled
    | func =>
      simp only [mode, PhpProf.profFuncSetup, Prod.mk.injEq, and_true] at started
      subst started
      refine ⟨rfl, _, rfl, Rests.shows ?_ rfl rfl (fun _ => ⟨rfl, rfl⟩) ?_⟩
      · exact ⟨blocks, strings, rfl, rfl, timings, lastFile, lastLineno, lastTime⟩
      · exact fun opcode => absurd (mode.symm.trans opcode) (by simp)
    | opcode =>
      simp only [mode, PhpProf.profOpcodeSetup, Prod.mk.injEq, and_true] at started
      subst started
      refine ⟨rfl, _, rfl, Rests.shows ?_ rfl rfl ?_ fun _ => rfl⟩
      · exact ⟨blocks, strings, rfl, units, rfl, lastFile, lastLineno, lastTime⟩
      · exact fun func => absurd (mode.symm.trans func) (by simp)
    | none =>
      simp only [mode, Prod.mk.injEq, and_true] at started
      subst started
      refine ⟨rfl, _, rfl, Rests.shows ?_ rfl rfl ?_ ?_⟩
      · exact ⟨blocks, strings, rfl, units, timings, lastFile, lastLineno, lastTime⟩
      · exact fun func => absurd (mode.symm.trans func) (by simp)
      · exact fun opcode => absurd (mode.symm.trans opcode) (by simp)

/-! ## The end of a request -/

/-- Owned blocks are freed one after another. -/
theorem foldlM_efree {ptrs owned : List Nat} (owns : memory.heap.Owns (ptrs ++ owned)) :
    ptrs.foldlM ProfMemory.efree memory =
      some { memory with heap := ptrs.foldl Heap.free memory.heap } := by
  induction ptrs generalizing memory with
  | nil => rfl
  | cons ptr rest ih =>
    obtain ⟨block, live⟩ := owns.read (List.mem_cons_self ..)
    rw [List.foldlM_cons, efree_eq live]
    exact ih owns.free

theorem foldl_addref (addrs : List Nat) (memory : ProfMemory) :
    addrs.foldl ProfMemory.addref memory =
      { memory with strings := addrs.foldl References.take memory.strings } := by
  induction addrs generalizing memory with
  | nil => rfl
  | cons addr rest ih => exact ih (memory.addref addr)

/-- References that are held are given back one after another. -/
theorem foldlM_release {addrs held : List Nat} (holds : memory.strings.Held (addrs ++ held)) :
    addrs.foldlM ProfMemory.release memory =
      some { memory with strings := addrs.foldl References.release memory.strings } := by
  induction addrs generalizing memory with
  | nil => rfl
  | cons addr rest ih =>
    have first : memory.release addr =
        some { memory with strings := memory.strings.release addr } := if_pos holds.outstanding
    rw [List.foldlM_cons, first]
    exact ih holds.release

/-- What is left of the meaning once a report has sorted the units: some blocks and
strings are a function's own, and the globals hold the others. -/
structure Ends (memory : ProfMemory) (blocks strings : List Nat) (globals : ProfGlobals) :
    Prop where
  owns : memory.heap.Owns (blocks ++ globalBlocks memory)
  held : memory.strings.Held (strings ++ globalStrings memory)
  config : memory.config = globals.config
  lastFile : memory.opcodeLastFile = globals.opcodeLastFile
  lastLineno : memory.opcodeLastLineno = globals.opcodeLastLineno
  lastTime : memory.opcodeLastTime = globals.opcodeLastTime
  idleUnits : globals.config.mode ≠ .func → memory.funcUnits = .empty
  idleTimings : globals.config.mode ≠ .opcode → memory.opcodeTimings = .empty

theorem Shows.ends (shows : Shows memory blocks strings globals) :
    Ends memory blocks strings globals where
  owns := shows.owns
  held := shows.held
  config := shows.represents.config
  lastFile := shows.represents.lastFile
  lastLineno := shows.represents.lastLineno
  lastTime := shows.represents.lastTime
  idleUnits := shows.represents.idleUnits
  idleTimings := shows.represents.idleTimings

/-- The units of the table can be read. -/
def Readable (memory : ProfMemory) (table : OrderedTable Bytes Bucket) : Prop :=
  ∀ ptr ∈ pointers table, ∃ funcUnit, memory.funcUnitAt ptr = some funcUnit

theorem compare_consistent (unitAt : Nat → ProfFuncUnit) :
    Ranking.Consistent (ProfMemory.profCompareFuncUnits unitAt) where
  swap := fun _ _ => ReportProofs.compareFuncUnits_consistent.swap _ _
  trans := fun _ _ _ => ReportProofs.compareFuncUnits_consistent.trans _ _ _

/-- Sorting reads the units and leaves the same ones. -/
theorem sortFuncUnits_ends (sorts : ReportProofs.SortsByComparator engine)
    (shows : Shows memory [] [] globals) (mode : globals.config.mode = .func) :
    Succeeds (memory.sortFuncUnits engine) fun sorted =>
      sorted.errors = memory.errors ∧ Readable sorted sorted.funcUnits ∧
        Ends sorted [] [] globals := by
  have readable : Readable memory memory.funcUnits := by
    intro ptr member
    obtain ⟨funcUnit, stored⟩ := (shows.represents.funcUnits mode).follow member
    exact ⟨funcUnit, funcUnitAt_eq stored⟩
  obtain ⟨compared, read⟩ := mapM_of_forall readable
  obtain ⟨same, -⟩ := sorts _ memory.funcUnits (compare_consistent fun ptr =>
    (memory.funcUnitAt ptr).getD ⟨0, 0, 0, 0⟩)
  rw [ProfMemory.sortFuncUnits, read, Option.bind_eq_bind, Option.bind_some]
  refine .intro ⟨rfl, ?_, ?_⟩
  · intro ptr member
    exact readable ptr ((same.map _).mem_iff.mp member)
  · exact
      { shows.ends with
        owns := by
          refine shows.owns.perm (List.Perm.append_right _ (List.Perm.append_left memory.errors ?_))
          exact (same.map _).symm
        held := shows.held.perm (List.Perm.append_right (keyReferences _) (same.map _).symm)
        idleUnits := absurd mode }

/-- The slice is a block of the caller's own, with its references and units of the table. -/
theorem Ends.htSlice (ends : Ends memory blocks strings globals)
    (readable : Readable memory memory.funcUnits) {limit : UInt64}
    (creatable : ReportProofs.Creatable limit) :
    ∃ after res slice, memory.htSlice memory.funcUnits limit = some (after, res, slice) ∧
      after.errors = memory.errors ∧ Readable after slice ∧
      Ends after (res :: blocks) (keyReferences slice ++ strings) globals := by
  obtain ⟨slice, sliced, entries⟩ := ReportProofs.htSlice_entries creatable memory.funcUnits
  refine ⟨_, _, slice, by rw [ProfMemory.htSlice, sliced]; rfl, ?_⟩
  rw [foldl_addref]
  refine ⟨rfl, ?_, ?_⟩
  · intro ptr member
    rw [pointers, entries] at member
    have listed : ptr ∈ pointers memory.funcUnits :=
      List.map_subset _ (List.take_subset ..) member
    have owned : ptr ∈ blocks ++ globalBlocks memory :=
      List.mem_append_right _ (List.mem_append_left _ (List.mem_append_right _ listed))
    have kept := ends.owns.cells_alloc .slice ptr owned
    obtain ⟨funcUnit, stored⟩ := readable ptr listed
    exact ⟨funcUnit, by simpa only [funcUnitAt, ProfMemory.emalloc, kept] using stored⟩
  · exact
      { ends with
        owns := ends.owns.alloc_first _
        held := by
          rw [List.append_assoc]
          exact ends.held.take_all _ }

/-- The report gives back its slice with the references in it. -/
theorem funcReport_ends (sorts : ReportProofs.SortsByComparator engine)
    (shows : Shows memory [] [] globals) (mode : globals.config.mode = .func)
    (creatable : ReportProofs.Creatable globals.config.funcLimit) :
    Succeeds (memory.profFuncPrintResult engine) fun reported =>
      reported.errors = memory.errors ∧ Ends reported [] [] globals := by
  unfold ProfMemory.profFuncPrintResult
  apply (sortFuncUnits_ends sorts shows mode).bind
  rintro sorted ⟨errors, readable, ends⟩
  rw [← errors]
  rw [← ends.config] at creatable
  obtain ⟨opened, res, slice, sliced, errors, readable, ends⟩ := ends.htSlice readable creatable
  obtain ⟨shown, read⟩ := mapM_of_forall readable
  rw [← errors]
  have held := ends.held
  rw [List.append_nil] at held
  obtain ⟨block, live⟩ := ends.owns.read (List.mem_cons_self ..)
  simp only [sliced, read, foldlM_release held, Option.bind_eq_bind, Option.bind_some]
  exact ⟨_, efree_eq live, rfl, { ends with owns := ends.owns.free, held := held.release_all }⟩

/-- The report of the mode comes to its end where the one of the globals does. -/
theorem report_ends (sorts : ReportProofs.SortsByComparator engine)
    (shows : Shows memory [] [] globals) (unsampled : globals.config.mode ≠ .sampling)
    {env : RshutdownEnv} {reported : ProfGlobals × List Output}
    (found : PhpProf.profReport engine env globals = some reported) :
    Succeeds (memory.profReport engine) fun last =>
      last.errors = memory.errors ∧ Ends last [] [] globals := by
  unfold ProfMemory.profReport
  unfold PhpProf.profReport at found
  rw [shows.represents.config]
  cases mode : globals.config.mode with
  | sampling => exact absurd mode unsampled
  | none => exact .intro ⟨rfl, shows.ends⟩
  | opcode =>
    obtain ⟨lines, read⟩ := mapM_of_forall fun ptr member =>
      ((shows.represents.timings mode).follow member).imp fun lines stored =>
        fileTimingsAt_eq stored
    simp only [ProfMemory.profOpcodePrintResult, read]
    exact .intro ⟨rfl, shows.ends⟩
  | func =>
    simp only [mode, PhpProf.profFuncPrintResult, Option.map_map, Option.map_eq_some_iff] at found
    obtain ⟨res, sliced, -⟩ := found
    exact funcReport_ends sorts shows mode (ReportProofs.creatable_of_htSlice sliced)

theorem shutdownErrors_ends (ends : Ends memory [] [] globals) :
    Succeeds memory.profShutdownErrors fun after =>
      after.errors = [] ∧ Ends after [] [] globals := by
  have owns := ends.owns
  rw [List.nil_append, globalBlocks, List.append_assoc] at owns
  rw [ProfMemory.profShutdownErrors, foldlM_efree owns]
  exact .intro ⟨rfl, { ends with owns := owns.free_all }⟩

/-- Teardown frees what the table of the mode holds, and then nothing is live. -/
theorem teardown_rests (ends : Ends memory [] [] globals) (noErrors : memory.errors = [])
    (unsampled : globals.config.mode ≠ .sampling) :
    ∃ rest, memory.profTeardown = some (rest, .success) ∧ Rests rest globals := by
  obtain ⟨owns, held, config, lastFile, lastLineno, lastTime, idleUnits, idleTimings⟩ := ends
  rw [List.nil_append, globalBlocks, noErrors, List.nil_append] at owns
  rw [List.nil_append, globalStrings] at held
  unfold ProfMemory.profTeardown
  rw [config]
  cases mode : globals.config.mode with
  | sampling => exact absurd mode unsampled
  | func =>
    have idle := idleTimings (by simp [mode])
    rw [idle] at owns held
    have released : (keyReferences memory.funcUnits).foldlM ProfMemory.release
        { memory with heap := (pointers memory.funcUnits).foldl Heap.free memory.heap } = _ :=
      foldlM_release held
    simp only [ProfMemory.profFuncTeardown, foldlM_efree owns, released, Option.bind_eq_bind,
      Option.bind_some]
    refine ⟨_, rfl, ?_, ?_, config, rfl, idle, lastFile, lastLineno, lastTime⟩
    · exact owns.free_all.released_iff.mpr rfl
    · exact References.balanced_iff_held.mpr held.release_all
  | opcode =>
    have idle := idleUnits (by simp [mode])
    rw [idle, pointers_empty, List.nil_append, ← List.append_nil (pointers _)] at owns
    rw [idle, keyReferences_empty, List.nil_append, ← List.append_nil (keyReferences _)] at held
    have released : (keyReferences memory.opcodeTimings).foldlM ProfMemory.release
        { memory with heap := (pointers memory.opcodeTimings).foldl Heap.free memory.heap } = _ :=
      foldlM_release held
    simp only [ProfMemory.profOpcodeTeardown, foldlM_efree owns, released, Option.bind_eq_bind,
      Option.bind_some]
    refine ⟨_, rfl, ?_, ?_, config, idle, rfl, lastFile, lastLineno, lastTime⟩
    · exact owns.free_all.released_iff.mpr rfl
    · exact References.balanced_iff_held.mpr held.release_all
  | none =>
    have noUnits := idleUnits (by simp [mode])
    have noTimings := idleTimings (by simp [mode])
    rw [noUnits, noTimings] at owns held
    exact ⟨_, rfl, owns.released_iff.mpr rfl, References.balanced_iff_held.mpr held, config,
      noUnits, noTimings, lastFile, lastLineno, lastTime⟩

theorem Rests.of_keeps {after : ProfGlobals} (rests : Rests memory globals)
    (keeps : RequestProofs.Keeps globals after) : Rests memory after where
  blocks := rests.blocks
  strings := rests.strings
  config := rests.config.trans keeps.config.symm
  funcUnits := rests.funcUnits
  timings := rests.timings
  lastFile := rests.lastFile.trans keeps.lastFile.symm
  lastLineno := rests.lastLineno.trans keeps.lastLineno.symm
  lastTime := rests.lastTime.trans keeps.lastTime.symm

theorem errorsAt_eq {ptrs : List Nat} {errors : List ProfError}
    (stored : ptrs.map memory.heap.cells = errors.map fun error => some (.error error)) :
    ptrs.map memory.errorAt = errors.map some := by
  induction ptrs generalizing errors with
  | nil =>
    cases errors with
    | nil => rfl
    | cons error later => cases stored
  | cons ptr rest ih =>
    cases errors with
    | nil => cases stored
    | cons error later =>
      obtain ⟨first, others⟩ := List.cons.inj stored
      rw [List.map_cons, List.map_cons, errorAt_eq first, ih others]

/-- Read through their pointers, the errors are those of the globals. -/
theorem printErrors_eq (shows : Shows memory blocks strings globals) :
    memory.profPrintErrors = some globals.errors :=
  mapM_of_map (errorsAt_eq shows.represents.errors)

theorem hasErrors_eq (shows : Shows memory blocks strings globals) :
    memory.profHasErrors = PhpProf.profHasErrors globals := by
  have lengths := congrArg List.length shows.represents.errors
  rw [List.length_map, List.length_map] at lengths
  rw [ProfMemory.profHasErrors, PhpProf.profHasErrors]
  cases listed : memory.errors <;> cases recorded : globals.errors <;>
    simp_all

/-- A request that comes to its end leaves nothing live, whether it reports or
prints its errors. -/
theorem rshutdown_rests (sorts : ReportProofs.SortsByComparator engine)
    (shows : Shows memory [] [] globals) (unsampled : globals.config.mode ≠ .sampling)
    {env : RshutdownEnv} {after : ProfGlobals} {outputs : List Output} {result : ZendResult}
    (ended : PhpProf.phpRshutdown engine env globals = some (after, outputs, result)) :
    ∃ rest, memory.phpRshutdown engine = some (rest, .success) ∧ Rests rest after := by
  have keeps := RequestProofs.phpRshutdown_keeps ended
  have reported : Succeeds (if memory.profHasErrors then some memory else memory.profReport engine)
      fun last => (∃ errors, last.profPrintErrors = some errors) ∧ Ends last [] [] globals := by
    unfold PhpProf.phpRshutdown at ended
    rw [hasErrors_eq shows]
    split at ended
    · next recorded =>
      rw [if_pos recorded]
      exact .intro ⟨⟨_, printErrors_eq shows⟩, shows.ends⟩
    · next silent =>
      simp only [Option.map_eq_some_iff] at ended
      obtain ⟨⟨reported, report⟩, found, -⟩ := ended
      obtain ⟨last, made, kept, ends⟩ := report_ends sorts shows unsampled found
      have noErrors : memory.errors = [] := by
        rw [← hasErrors_eq shows, ProfMemory.profHasErrors] at silent
        simpa using silent
      rw [if_neg silent]
      refine ⟨last, made, ⟨[], ?_⟩, ends⟩
      rw [ProfMemory.profPrintErrors, kept, noErrors]
      rfl
  obtain ⟨last, made, ⟨errors, read⟩, ends⟩ := reported
  obtain ⟨closed, freed, noErrors, ends⟩ := shutdownErrors_ends ends
  obtain ⟨rest, torn, rests⟩ := teardown_rests ends noErrors unsampled
  refine ⟨rest, ?_, rests.of_keeps keeps⟩
  rw [ProfMemory.phpRshutdown, made]
  simp only [Option.bind_eq_bind, Option.bind_some, read, freed, torn]

theorem runRequest_rests (sorts : ReportProofs.SortsByComparator engine)
    (rests : Rests memory globals) (unsampled : globals.config.mode ≠ .sampling)
    {named : NamedRequest} {after : ProfGlobals}
    (ran : PhpProf.runRequest engine globals named.request = some after) :
    ∃ rest, memory.runRequest engine named = some rest ∧ Rests rest after := by
  unfold PhpProf.runRequest at ran
  split at ran
  · cases ran
  · next setup started =>
    obtain ⟨config, begun, began, shows⟩ := rinit_shows rests unsampled started
    have began : memory.phpRinit named.rinit = (begun, .success) := began
    rw [← config] at unsampled
    have delivers : Succeeds (begun.deliverAll engine named.events) _ :=
      deliverAll_shows shows unsampled named.events
    obtain ⟨later, delivered, shown⟩ := delivers
    rw [← RequestProofs.deliverAll_config setup named.request.events] at unsampled
    split at ran
    · next ended =>
      cases ran
      obtain ⟨rest, torn, rests⟩ := rshutdown_rests sorts shown unsampled ended
      refine ⟨rest, ?_, rests⟩
      simp only [ProfMemory.runRequest, began, delivered, torn, Option.bind_eq_bind,
        Option.bind_some]
      rfl
    · cases ran

theorem runRequests_rests (sorts : ReportProofs.SortsByComparator engine)
    (rests : Rests memory globals) (unsampled : globals.config.mode ≠ .sampling)
    {requests : List NamedRequest} {after : ProfGlobals}
    (ran : PhpProf.runRequests engine globals (requests.map NamedRequest.request) = some after) :
    ∃ rest, memory.runRequests engine requests = some rest ∧ Rests rest after := by
  induction requests generalizing memory globals with
  | nil =>
    cases ran
    exact ⟨memory, rfl, rests⟩
  | cons named later ih =>
    obtain ⟨between, first, continued⟩ := RequestProofs.runRequests_cons ran
    obtain ⟨rest, stepped, between⟩ := runRequest_rests sorts rests unsampled first
    rw [← RequestProofs.runRequest_config first] at unsampled
    obtain ⟨last, finished, rests⟩ := ih between unsampled continued
    refine ⟨last, ?_, rests⟩
    simp only [ProfMemory.runRequests, List.foldlM_cons, stepped, Option.bind_eq_bind,
      Option.bind_some]
    exact finished

/-- However many requests have completed, and whatever has been delivered to the
one that runs, no dead block has been met, what is live is what the globals hold,
and read through its pointers it is what the globals say. -/
theorem running_request_shows (engine : Engine) (sorts : ReportProofs.SortsByComparator engine)
    {config : ProfConfig} (unsampled : config.mode ≠ .sampling) (requests : List NamedRequest)
    {between setup : ProfGlobals}
    (ran : PhpProf.runRequests engine (.fresh config) (requests.map NamedRequest.request) =
      some between)
    {rinit : RinitEnv} (started : PhpProf.phpRinit rinit between = (setup, .success))
    (events : List NamedEvent) :
    ∃ rest begun later, ProfMemory.runRequests engine (.fresh config) requests = some rest ∧
      rest.phpRinit rinit = (begun, .success) ∧ begun.deliverAll engine events = some later ∧
      Shows later [] [] (PhpProf.deliverAll engine setup (events.map NamedEvent.event)) := by
  obtain ⟨rest, completed, rests⟩ := runRequests_rests sorts (fresh_rests config) unsampled ran
  have kept : between.config.mode ≠ .sampling := by
    rw [RequestProofs.runRequests_config ran]
    exact unsampled
  obtain ⟨same, begun, began, shows⟩ := rinit_shows rests kept started
  rw [← same] at kept
  obtain ⟨later, delivered, shown⟩ := deliverAll_shows shows kept events
  exact ⟨rest, begun, later, completed, began, delivered, shown⟩

/-- A call, a call whose end has no clock, and two ends, of which the second has no
start. -/
def brokenCalls : List NamedEvent :=
  let func := FuncProofs.plainFunction "f"
  [⟨.observerBegin func (FuncProofs.clocksAt 1 1 64), 0⟩,
    ⟨.observerEnd func (FuncProofs.clocksAt 5 2 96), 7⟩,
    ⟨.observerBegin func (FuncProofs.clocksAt 6 3 64), 0⟩,
    ⟨.observerEnd func ⟨none, none, 0⟩, 8⟩,
    ⟨.observerEnd func (FuncProofs.clocksAt 8 4 64), 9⟩,
    ⟨.observerEnd func (FuncProofs.clocksAt 9 4 64), 9⟩]

def funcConfig : ProfConfig := ⟨.func, .console, 1000, 20, 1, 50, 0, 0⟩

def started : RinitEnv := ⟨some ⟨1, 0⟩, fun _ => true⟩

/-- A request with one call, which is reported. -/
def reportedRequest : NamedRequest := ⟨started, brokenCalls.take 2, .quiet⟩

/-- A request that ends with errors. -/
def brokenRequest : NamedRequest := ⟨started, brokenCalls, .quiet⟩

theorem broken_request_shows :
    ∃ between, PhpProf.runRequests php (.fresh funcConfig) [reportedRequest.request] =
        some between ∧
      ∃ rest begun later, ProfMemory.runRequests php (.fresh funcConfig) [reportedRequest] =
          some rest ∧
        rest.phpRinit started = (begun, .success) ∧
        begun.deliverAll php brokenCalls = some later ∧
        Shows later [] [] (PhpProf.deliverAll php (PhpProf.phpRinit started between).1
          (brokenCalls.map NamedEvent.event)) := by
  have completes : (PhpProf.runRequests php (.fresh funcConfig)
      ([reportedRequest].map NamedRequest.request)).isSome = true := by
    decide +kernel
  obtain ⟨between, ran⟩ := Option.isSome_iff_exists.mp completes
  have config : between.config = funcConfig := RequestProofs.runRequests_config ran
  have succeeds : PhpProf.phpRinit started between =
      ((PhpProf.phpRinit started between).1, .success) := by
    simp only [PhpProf.phpRinit, PhpProf.profInitErrors, config]
    rfl
  exact ⟨between, ran,
    running_request_shows php ReportProofs.php_sorts (by decide) _ ran succeeds brokenCalls⟩

/-- Any number of completed requests in func or opcode mode, or without profiling,
neither read, write nor free a dead block. After them every block has been freed
exactly once, and every string released as often as it was taken. -/
theorem completed_requests_release (engine : Engine)
    (sorts : ReportProofs.SortsByComparator engine) {config : ProfConfig}
    (unsampled : config.mode ≠ .sampling) (requests : List NamedRequest) {after : ProfGlobals}
    (ran : PhpProf.runRequests engine (.fresh config) (requests.map NamedRequest.request) =
      some after) :
    ∃ rest, ProfMemory.runRequests engine (.fresh config) requests = some rest ∧
      rest.heap.Released ∧ rest.strings.Balanced := by
  obtain ⟨rest, completed, rests⟩ := runRequests_rests sorts (fresh_rests config) unsampled ran
  exact ⟨rest, completed, rests.blocks, rests.strings⟩

theorem broken_requests_release :
    ∃ rest, ProfMemory.runRequests php (.fresh funcConfig) [reportedRequest, brokenRequest] =
      some rest ∧ rest.heap.Released ∧ rest.strings.Balanced := by
  have completes : (PhpProf.runRequests php (.fresh funcConfig)
      ([reportedRequest, brokenRequest].map NamedRequest.request)).isSome = true := by
    decide +kernel
  obtain ⟨after, ran⟩ := Option.isSome_iff_exists.mp completes
  exact completed_requests_release php ReportProofs.php_sorts (by decide) _ ran

end PhpProf.RequestMemoryProofs
