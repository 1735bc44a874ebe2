import PhpProf.PprofFileProofs
import PhpProf.PprofMemory
import PhpProf.Succeeds

/-! The pprof report leaves the memory as it finds it. Every step is followed on a
list of the live blocks and of the references to strings: the loop over the units
adds three blocks and more to it, packing reads them back, and what is freed at the
end is what has been added. -/
namespace PhpProf.PprofMemoryProofs
open PprofMemory

/-! ## Single steps -/

/-- The live blocks and the references to strings, with what they hold. -/
structure Has (memory : PprofMemory) (blocks : Multiset (Nat × PprofBlock))
    (strings : Multiset (Nat × Bytes)) : Prop where
  blocks : memory.blocks.Holds blocks
  strings : memory.strings.Shares strings

variable {memory : PprofMemory} {blocks rest : Multiset (Nat × PprofBlock)}
  {strings held : Multiset (Nat × Bytes)}

theorem Has.regroup (has : Has memory blocks strings) (sameBlocks : blocks = rest)
    (sameStrings : strings = held) : Has memory rest held :=
  sameBlocks ▸ sameStrings ▸ has

theorem Has.block (has : Has memory blocks strings) {ptr : Nat} {block : PprofBlock}
    (member : (ptr, block) ∈ blocks) : memory.blocks.cells ptr = some block :=
  has.blocks.read member

theorem Has.first {ptr : Nat} {block : PprofBlock}
    (has : Has memory ({(ptr, block)} + rest) strings) : memory.blocks.cells ptr = some block :=
  has.block (Multiset.mem_add.mpr (.inl (Multiset.mem_singleton_self _)))

theorem Has.emalloc (has : Has memory blocks strings) (block : PprofBlock) :
    ∃ after ptr, memory.emalloc block = (after, ptr) ∧
      Has after ({(ptr, block)} + blocks) strings :=
  ⟨_, _, rfl, has.blocks.alloc block, has.strings⟩

theorem Has.efree {ptr : Nat} {block : PprofBlock}
    (has : Has memory ({(ptr, block)} + rest) strings) :
    ∃ after, memory.efree ptr = some after ∧ Has after rest strings := by
  refine ⟨{ memory with blocks := memory.blocks.free ptr }, ?_, has.blocks.free, has.strings⟩
  rw [PprofMemory.efree, has.first]
  rfl

theorem Has.store {ptr : Nat} {block : PprofBlock}
    (has : Has memory ({(ptr, block)} + rest) strings) (stored : PprofBlock) :
    ∃ after, memory.store ptr stored = some after ∧
      Has after ({(ptr, stored)} + rest) strings := by
  refine ⟨{ memory with blocks := memory.blocks.modify ptr fun _ => stored }, ?_,
    has.blocks.modify _, has.strings⟩
  rw [PprofMemory.store, has.first]
  rfl

theorem Has.pointerAt {array i ptr : Nat} {slots : List (Option Nat)}
    (has : Has memory blocks strings) (member : (array, .pointers slots) ∈ blocks)
    (assigned : slots[i]? = some (some ptr)) : memory.pointerAt array i = some ptr := by
  simp only [PprofMemory.pointerAt, has.block member, Option.bind_eq_bind, Option.bind_some,
    assigned, Option.join_some]

theorem Has.setPointer {array i : Nat} {slots : List (Option Nat)}
    (has : Has memory ({(array, .pointers slots)} + rest) strings) (within : i < slots.length)
    (ptr : Nat) :
    ∃ after, memory.setPointer array i ptr = some after ∧
      Has after ({(array, .pointers (slots.set i (some ptr)))} + rest) strings := by
  obtain ⟨after, stored, holds⟩ := has.store (.pointers (slots.set i (some ptr)))
  refine ⟨after, ?_, holds⟩
  simp only [PprofMemory.setPointer, has.first, Option.bind_eq_bind, Option.bind_some,
    if_pos within, stored]

theorem Has.zendStringInit (has : Has memory blocks strings) (text : Bytes) :
    ∃ after str, memory.zendStringInit text = (after, str) ∧
      Has after blocks ({(str, text)} + strings) :=
  ⟨_, _, rfl, has.blocks, has.strings.share text⟩

theorem Has.zstrVal {str : Nat} {text : Bytes} (has : Has memory blocks strings)
    (member : (str, text) ∈ strings) : memory.zstrVal str = some text := by
  rw [PprofMemory.zstrVal, has.strings.read member]
  rfl

theorem Has.zendStringCopy {str : Nat} {text : Bytes} (has : Has memory blocks strings)
    (member : (str, text) ∈ strings) :
    ∃ after, memory.zendStringCopy str = some after ∧
      Has after blocks ({(str, text)} + strings) := by
  refine ⟨{ memory with strings := memory.strings.take str }, ?_, has.blocks,
    has.strings.take member⟩
  rw [PprofMemory.zendStringCopy, has.strings.read member]
  rfl

theorem Has.zendStringRelease {str : Nat} {text : Bytes}
    (has : Has memory blocks ({(str, text)} + held)) :
    ∃ after, memory.zendStringRelease str = some after ∧ Has after blocks held := by
  refine ⟨{ memory with strings := memory.strings.release str }, ?_, has.blocks,
    has.strings.release⟩
  rw [PprofMemory.zendStringRelease,
    has.strings.read (Multiset.mem_add.mpr (.inl (Multiset.mem_singleton_self _)))]
  rfl

/-! ## The string table map -/

/-- The map numbers strings as the interner does. -/
structure Agrees (stringTableMap : StringTableMap) (interner : PprofStringTableMap) : Prop where
  map : stringTableMap.map.mapValues StringIndex.index = interner.map
  i : stringTableMap.i = interner.next

/-- The references the map has to its keys. -/
def mapKeys (stringTableMap : StringTableMap) : Multiset (Nat × Bytes) :=
  ↑(stringTableMap.map.entries.map fun entry => (entry.2.key, entry.1))

variable {stringTableMap : StringTableMap} {interner : PprofStringTableMap}

theorem intern_some {key : Bytes} {index : Nat} (found : interner.map.find? key = some index) :
    interner.intern key = (interner, index) := by
  unfold Interner.intern
  split
  · next other same =>
    rw [found, Option.some.injEq] at same
    rw [same]
  · next missing =>
    rw [found] at missing
    cases missing

theorem intern_none {key : Bytes} (missing : interner.map.find? key = none) :
    (interner.intern key).1.map = interner.map.add key interner.next ∧
      (interner.intern key).1.next = interner.next + 1 ∧
      (interner.intern key).2 = interner.next := by
  unfold Interner.intern
  split
  · next found =>
    rw [missing] at found
    cases found
  · exact ⟨rfl, rfl, rfl⟩

/-- A string is numbered as its text is, and the map takes a reference to it when
the text is new. -/
theorem getStringTableMapIndex_spec {str : Nat} {text : Bytes}
    (has : Has memory blocks (mapKeys stringTableMap + held))
    (agrees : Agrees stringTableMap interner) (member : (str, text) ∈ held) :
    ∃ after later, memory.getStringTableMapIndex stringTableMap str =
        some (after, later, (getStringTableMapIndex interner text).2) ∧
      Has after blocks (mapKeys later + held) ∧
      Agrees later (getStringTableMapIndex interner text).1 := by
  have listed : (str, text) ∈ mapKeys stringTableMap + held := Multiset.mem_add.mpr (.inr member)
  have same := stringTableMap.map.find?_mapValues StringIndex.index text
  rw [agrees.map] at same
  rw [PhpProf.getStringTableMapIndex]
  cases found : stringTableMap.map.find? text with
  | some entry =>
    rw [found, Option.map_some] at same
    refine ⟨memory, stringTableMap, ?_, has, ?_⟩
    · simp only [PprofMemory.getStringTableMapIndex, has.zstrVal listed, found, intern_some same,
        Option.bind_eq_bind, Option.bind_some, Option.pure_def]
    · rw [intern_some same]
      exact agrees
  | none =>
    rw [found, Option.map_none] at same
    obtain ⟨map, next, number⟩ := intern_none same
    obtain ⟨after, copied, holds⟩ := has.zendStringCopy listed
    refine ⟨after, ⟨stringTableMap.map.add text ⟨str, stringTableMap.i⟩, stringTableMap.i + 1⟩,
      ?_, ?_, ?_, ?_⟩
    · simp only [PprofMemory.getStringTableMapIndex, has.zstrVal listed, found, copied, number,
        agrees.i, Option.bind_eq_bind, Option.bind_some, Option.pure_def]
    · refine holds.regroup rfl ?_
      rw [mapKeys, mapKeys,
        OrderedTable.entries_add _ ((OrderedTable.find?_eq_none_iff _).mp found), List.map_append,
        ← Multiset.coe_add, List.map_singleton, Multiset.coe_singleton]
      ac_rfl
    · rw [OrderedTable.mapValues_add, agrees.map, map, agrees.i]
    · rw [next, agrees.i]

/-- A literal is numbered as its text; the string made for it is given back. -/
theorem getStringTableMapStrIndex_spec (has : Has memory blocks (mapKeys stringTableMap + held))
    (agrees : Agrees stringTableMap interner) (str : Bytes) (len : Nat) :
    ∃ after later, memory.getStringTableMapStrIndex stringTableMap str len =
        some (after, later, (getStringTableMapStrIndex interner str len).2) ∧
      Has after blocks (mapKeys later + held) ∧
      Agrees later (getStringTableMapStrIndex interner str len).1 := by
  obtain ⟨first, s, made, holds⟩ := has.zendStringInit (str.take len)
  have holds := holds.regroup rfl
    (add_left_comm {(s, str.take len)} (mapKeys stringTableMap) held)
  obtain ⟨second, later, indexed, holds, agrees⟩ := getStringTableMapIndex_spec holds agrees
    (Multiset.mem_add.mpr (.inl (Multiset.mem_singleton_self _)))
  have holds := holds.regroup rfl (add_left_comm (mapKeys later) {(s, str.take len)} held)
  obtain ⟨third, released, holds⟩ := holds.zendStringRelease
  refine ⟨third, later, ?_, holds, agrees⟩
  simp only [PprofMemory.getStringTableMapStrIndex, made, indexed, released,
    Option.bind_eq_bind, Option.bind_some, Option.pure_def]
  rfl

theorem pprofValueType_spec (has : Has memory blocks (mapKeys stringTableMap + held))
    (agrees : Agrees stringTableMap interner) (type unit : String) :
    ∃ after later, memory.pprofValueType stringTableMap type unit =
        some (after, later, (pprofValueType interner type unit).2) ∧
      Has after blocks (mapKeys later + held) ∧
      Agrees later (pprofValueType interner type unit).1 := by
  obtain ⟨first, map, typed, holds, agrees⟩ :=
    getStringTableMapStrIndex_spec has agrees (cLiteral type) (cLiteral type).length
  obtain ⟨second, later, counted, holds, agrees⟩ :=
    getStringTableMapStrIndex_spec holds agrees (cLiteral unit) (cLiteral unit).length
  refine ⟨second, later, ?_, holds, agrees⟩
  simp only [PprofMemory.pprofValueType, typed, counted, Option.bind_eq_bind, Option.bind_some,
    Option.pure_def]
  rfl

/-- Giving back one string after another. -/
theorem release_loop {references : List (Nat × Bytes)}
    (has : Has memory blocks (↑references + held)) :
    ∃ after, references.foldlM (fun memory string => memory.zendStringRelease string.1) memory =
        some after ∧ Has after blocks held := by
  induction references generalizing memory with
  | nil => exact ⟨memory, rfl, has.regroup rfl (by simp)⟩
  | cons string rest ih =>
    have holds := has.regroup rfl (show _ = {(string.1, string.2)} + (↑rest + held) by
      rw [← Multiset.cons_coe, ← Multiset.singleton_add, add_assoc])
    obtain ⟨next, released, holds⟩ := holds.zendStringRelease
    obtain ⟨after, ended, holds⟩ := ih holds
    refine ⟨after, ?_, holds⟩
    rw [List.foldlM_cons, released]
    exact ended

/-- Destroying the map gives back its keys. -/
theorem destroyMap_spec (has : Has memory blocks (mapKeys stringTableMap + held)) :
    ∃ after, memory.destroyMap stringTableMap = some after ∧ Has after blocks held := by
  obtain ⟨after, ended, holds⟩ := release_loop has
  rw [List.foldlM_map] at ended
  exact ⟨after, ended, holds⟩

/-! ## Arrays of pointers -/

/-- The slots of an array that has been assigned from its start on. -/
def slots (ptrs : List Nat) (count : Nat) : List (Option Nat) :=
  ptrs.map some ++ List.replicate (count - ptrs.length) none

theorem slots_length {ptrs : List Nat} {count : Nat} (room : ptrs.length ≤ count) :
    (slots ptrs count).length = count := by
  simp only [slots, List.length_append, List.length_map, List.length_replicate]
  omega

theorem slots_get {ptrs : List Nat} {i : Nat} (within : i < ptrs.length) (count : Nat) :
    (slots ptrs count)[i]? = some (some ptrs[i]) := by
  rw [slots, List.getElem?_append_left (by simpa using within)]
  simp [within]

/-- The next slot is assigned. -/
theorem slots_set {ptrs : List Nat} {count : Nat} (room : ptrs.length < count) (ptr : Nat) :
    (slots ptrs count).set ptrs.length (some ptr) = slots (ptrs ++ [ptr]) count := by
  obtain ⟨spare, rfl⟩ : ∃ spare, count = ptrs.length + (spare + 1) :=
    ⟨count - ptrs.length - 1, by omega⟩
  have before : ptrs.length + (spare + 1) - ptrs.length = spare + 1 := by omega
  have after : ptrs.length + (spare + 1) - (ptrs.length + 1) = spare := by omega
  simp only [slots, before, List.length_append, List.length_singleton, after,
    List.replicate_succ, List.map_append, List.map_singleton]
  rw [List.set_append_right _ _ (by simp)]
  simp

/-- An array and the blocks of the elements it points to, as far as there are any. -/
def area {ι : Type} (ptr : ι → Nat) (own : ι → Multiset (Nat × PprofBlock))
    (array count : Nat) (items : List ι) : Multiset (Nat × PprofBlock) :=
  {(array, .pointers (slots (items.map ptr) count))} + (items.map own).sum

section Area

variable {ι α : Type} {ptr : ι → Nat} {own : ι → Multiset (Nat × PprofBlock)}
  {array count : Nat} {items : List ι}

theorem mem_area_array :
    (array, PprofBlock.pointers (slots (items.map ptr) count)) ∈ area ptr own array count items :=
  Multiset.mem_add.mpr (.inl (Multiset.mem_singleton_self _))

theorem mem_area {item : ι} (listed : item ∈ items) {cell : Nat × PprofBlock}
    (member : cell ∈ own item) : cell ∈ area ptr own array count items := by
  refine Multiset.mem_add.mpr (.inr ?_)
  obtain ⟨before, after, rfl⟩ := List.append_of_mem listed
  simp only [List.map_append, List.map_cons, List.sum_append, List.sum_cons, Multiset.mem_add]
  exact .inr (.inl member)

/-- A new element is in the next slot. -/
theorem area_concat (item : ι) :
    area ptr own array count (items ++ [item]) =
      {(array, .pointers (slots (items.map ptr ++ [ptr item]) count))} +
        (own item + (items.map own).sum) := by
  simp only [area, List.map_append, List.map_singleton, List.sum_append, List.sum_singleton]
  ac_rfl

theorem area_nil : area ptr own array count [] =
    {(array, .pointers (List.replicate count none))} := by
  simp [area, slots]

theorem slot_left (room : items.length < count) :
    items.length < (slots (items.map ptr) count).length := by
  rw [slots_length (by simpa using room.le)]
  exact room

/-- What each pointer leads to is read, in order. -/
theorem elements_spec {read : Nat → Option α} {value : ι → α}
    (has : Has memory blocks strings)
    (inside : ∀ cell ∈ area ptr own array count items, cell ∈ blocks)
    (each : ∀ item, (∀ cell ∈ own item, cell ∈ blocks) → read (ptr item) = some (value item)) :
    memory.elements items.length array read = some (items.map value) := by
  have length : items.length = (items.map value).length := by simp
  rw [elements, length]
  apply mapM_range
  intro i within
  rw [List.length_map] at within
  have slot := slots_get (show i < (items.map ptr).length by simpa using within) count
  rw [List.getElem_map] at slot
  have read := each items[i] fun cell member =>
    inside cell (mem_area (List.getElem_mem within) member)
  rw [has.pointerAt (inside _ mem_area_array) slot, Option.bind_eq_bind, Option.bind_some, read,
    List.getElem_map]

/-- A loop that frees one element after another leaves the array. -/
theorem free_loop {step : PprofMemory → Nat → Option PprofMemory}
    (has : Has memory (area ptr own array count items + rest) strings)
    (freed : ∀ memory rest i item, memory.pointerAt array i = some (ptr item) →
      Has memory ({(array, .pointers (slots (items.map ptr) count))} + (own item + rest)) strings →
      ∃ after, step memory i = some after ∧
        Has after ({(array, .pointers (slots (items.map ptr) count))} + rest) strings) :
    ∃ after, (List.range items.length).foldlM step memory = some after ∧
      Has after ({(array, .pointers (slots (items.map ptr) count))} + rest) strings := by
  let left (i : Nat) (memory : PprofMemory) : Prop :=
    Has memory ({(array, .pointers (slots (items.map ptr) count))} +
      (((items.drop i).map own).sum + rest)) strings
  have looped : Succeeds ((List.range items.length).foldlM step memory) (left items.length) := by
    refine Succeeds.foldlM_range left (fun i within memory here => ?_) ?_
    · have slot := slots_get (show i < (items.map ptr).length by simpa using within) count
      rw [List.getElem_map] at slot
      have pointer := here.pointerAt
        (Multiset.mem_add.mpr (.inl (Multiset.mem_singleton_self _))) slot
      simp only [left, List.drop_eq_getElem_cons within, List.map_cons, List.sum_cons] at here
      exact freed memory _ i items[i] pointer (here.regroup (by rw [add_assoc (own _)]) rfl)
    · exact has.regroup (by rw [area, List.drop_zero, add_assoc]) rfl
  obtain ⟨after, ended, here⟩ := looped
  exact ⟨after, ended, here.regroup (by simp) rfl⟩

end Area

/-! ## The loop over the units -/

/-- A unit in the table, with the addresses of its block and of its key. -/
structure Row where
  key : Bytes
  name : Nat
  ptr : Nat
  samplingUnit : ProfSamplingUnit

namespace Row

def bucket (row : Row) : Bytes × Bucket := (row.key, ⟨row.name, row.ptr⟩)

def entry (row : Row) : Bytes × ProfSamplingUnit := (row.key, row.samplingUnit)

def pointed (row : Row) : PointedUnit :=
  ⟨row.samplingUnit.hits, row.samplingUnit.filename.addr, row.samplingUnit.lineno⟩

def block (row : Row) : Nat × PprofBlock := (row.ptr, .samplingUnit row.pointed)

def nameString (row : Row) : Nat × Bytes := (row.name, row.key)

def fileString (row : Row) : Nat × Bytes :=
  (row.samplingUnit.filename.addr, row.samplingUnit.filename.val)

end Row

structure FunctionAt where
  ptr : Nat
  value : Profiles.Function

def FunctionAt.own (function : FunctionAt) : Multiset (Nat × PprofBlock) :=
  {(function.ptr, .function function.value)}

structure LocationAt where
  ptr : Nat
  lines : Nat
  line : Nat
  id : Nat
  first : Profiles.Line

namespace LocationAt

def value (location : LocationAt) : Profiles.Location := ⟨location.id, 1, [location.first]⟩

def own (location : LocationAt) : Multiset (Nat × PprofBlock) :=
  {(location.line, .line location.first)} + ({(location.lines, .pointers [some location.line])} +
    {(location.ptr, .location ⟨location.id, 1, 1, some location.lines⟩)})

end LocationAt

structure SampleAt where
  ptr : Nat
  ids : Nat
  values : Nat
  id : Nat
  hits : Int64
  nanoseconds : Int64

namespace SampleAt

def value (sample : SampleAt) : Profiles.Sample := ⟨[sample.id], [sample.hits, sample.nanoseconds]⟩

def own (sample : SampleAt) : Multiset (Nat × PprofBlock) :=
  {(sample.ids, .ids [sample.id])} + ({(sample.values, .values [sample.hits, sample.nanoseconds])} +
    {(sample.ptr, .sample ⟨1, some sample.ids, 2, some sample.values⟩)})

end SampleAt

def functionArea : Nat → Nat → List FunctionAt → Multiset (Nat × PprofBlock) :=
  area FunctionAt.ptr FunctionAt.own

def locationArea : Nat → Nat → List LocationAt → Multiset (Nat × PprofBlock) :=
  area LocationAt.ptr LocationAt.own

def sampleArea : Nat → Nat → List SampleAt → Multiset (Nat × PprofBlock) :=
  area SampleAt.ptr SampleAt.own

variable {arrays : PprofArrays} {locals : PprofLocals} {count : Nat}

theorem createFunction_spec {functions : List FunctionAt} {row : Row}
    (has : Has memory (functionArea arrays.functions count functions + rest)
      (mapKeys locals.stringTableMap + held))
    (agrees : Agrees locals.stringTableMap interner)
    (counted : locals.functionsI = functions.length) (room : functions.length < count)
    (named : row.nameString ∈ held) (filed : row.fileString ∈ held) :
    let name := getStringTableMapIndex interner row.key
    let filename := getStringTableMapIndex name.1 row.samplingUnit.filename.val
    ∃ after later function, memory.createFunction arrays locals row.name row.pointed =
        some (after, { locals with stringTableMap := later, functionsI := functions.length + 1 }) ∧
      Has after (functionArea arrays.functions count (functions ++ [function]) + rest)
        (mapKeys later + held) ∧
      Agrees later filename.1 ∧
      function.value = ⟨functions.length + 1, name.2, name.2, filename.2,
        row.samplingUnit.lineno.toNat⟩ := by
  intro name filename
  obtain ⟨first, ptr, made, holds⟩ := has.emalloc (.function ⟨0, 0, 0, 0, 0⟩)
  rw [functionArea, area, add_assoc, add_left_comm] at holds
  obtain ⟨second, linked, holds⟩ := holds.setPointer (slot_left room) ptr
  obtain ⟨third, middle, nameFound, holds, agrees⟩ :=
    getStringTableMapIndex_spec holds agrees named
  obtain ⟨fourth, later, fileFound, holds, agrees⟩ :=
    getStringTableMapIndex_spec holds agrees filed
  rw [add_left_comm] at holds
  obtain ⟨after, stored, holds⟩ := holds.store (.function ⟨functions.length + 1, name.2, name.2,
    filename.2, row.samplingUnit.lineno.toNat⟩)
  refine ⟨after, later, ⟨ptr, _⟩, ?_, holds.regroup ?_ rfl, agrees, rfl⟩
  · rw [← counted] at linked stored ⊢
    simp only [name, filename] at stored
    simp only [createFunction, Row.pointed, made, linked, nameFound, fileFound, stored,
      Option.bind_eq_bind, Option.bind_some, Option.pure_def]
  · rw [functionArea, area_concat, ← slots_set (by simpa using room), List.length_map]
    simp only [FunctionAt.own]
    ac_rfl

theorem createLocation_spec {locations : List LocationAt} {row : Row}
    (has : Has memory (locationArea arrays.locations count locations + rest) strings)
    (counted : locals.locationsI = locations.length) (room : locations.length < count) :
    ∃ after location, memory.createLocation arrays locals row.pointed =
        some (after, { locals with locationsI := locations.length + 1 }) ∧
      Has after (locationArea arrays.locations count (locations ++ [location]) + rest) strings ∧
      location.id = locations.length + 1 ∧
      location.first = ⟨locals.functionsI, row.samplingUnit.lineno.toNat⟩ := by
  let others := (locations.map LocationAt.own).sum + rest
  rw [locationArea, area, add_assoc] at has
  obtain ⟨first, lines, madeLines, holds⟩ := has.emalloc (.pointers [none])
  obtain ⟨second, line, madeLine, holds⟩ := holds.emalloc (.line ⟨0, 0⟩)
  rw [add_left_comm] at holds
  obtain ⟨third, linkedLine, holds⟩ := holds.setPointer (show 0 < [none].length by simp) line
  rw [add_left_comm] at holds
  obtain ⟨fourth, storedLine, holds⟩ :=
    holds.store (.line ⟨locals.functionsI, row.samplingUnit.lineno.toNat⟩)
  obtain ⟨fifth, ptr, made, holds⟩ := holds.emalloc (.location ⟨0, 0, 0, none⟩)
  -- the array comes first, then the location
  have holds : Has fifth
      ({(arrays.locations, .pointers (slots (locations.map LocationAt.ptr) count))} +
      ({(ptr, .location ⟨0, 0, 0, none⟩)} +
        ({(line, .line ⟨locals.functionsI, row.samplingUnit.lineno.toNat⟩)} +
          ({(lines, .pointers [some line])} + others)))) strings :=
    holds.regroup (by simp only [others, List.set_cons_zero]; ac_rfl) rfl
  obtain ⟨sixth, linked, holds⟩ := holds.setPointer (slot_left room) ptr
  rw [add_left_comm] at holds
  obtain ⟨after, stored, holds⟩ :=
    holds.store (.location ⟨locations.length + 1, 1, 1, some lines⟩)
  refine ⟨after, ⟨ptr, lines, line, _, _⟩, ?_, holds.regroup ?_ rfl, rfl, rfl⟩
  · rw [← counted] at linked stored ⊢
    simp only [createLocation, Row.pointed, madeLines, madeLine, linkedLine, storedLine, made,
      linked, stored, Option.bind_eq_bind, Option.bind_some, Option.pure_def]
  · rw [locationArea, area_concat, ← slots_set (by simpa using room), List.length_map]
    simp only [LocationAt.own, others]
    ac_rfl

theorem createSample_spec {samples : List SampleAt} {location : LocationAt} {row : Row}
    {locationSlots : List (Option Nat)} (samplingInterval : UInt64)
    (has : Has memory (sampleArea arrays.samples count samples + rest) strings)
    (counted : locals.samplesI = samples.length) (room : samples.length < count)
    (pointers : (arrays.locations, .pointers locationSlots) ∈ rest)
    (last : locationSlots[locals.locationsI - 1]? = some (some location.ptr))
    (stored : (location.ptr, .location ⟨location.id, 1, 1, some location.lines⟩) ∈ rest) :
    ∃ after sample, memory.createSample arrays locals samplingInterval row.pointed =
        some (after, { locals with samplesI := samples.length + 1 }) ∧
      Has after (sampleArea arrays.samples count (samples ++ [sample]) + rest) strings ∧
      sample.value = ⟨[location.id], [row.samplingUnit.hits.toInt64,
        (row.samplingUnit.hits * samplingInterval).toInt64 * 1000]⟩ := by
  let others := (samples.map SampleAt.own).sum + rest
  have frame : ∀ cell ∈ rest, ∀ first second : Multiset (Nat × PprofBlock),
      cell ∈ first + (second + others) := by
    intro cell member first second
    simp only [others, Multiset.mem_add]
    exact .inr (.inr (.inr member))
  rw [sampleArea, area, add_assoc] at has
  obtain ⟨first, ids, madeIds, holds⟩ := has.emalloc (.ids [0])
  have found := holds.pointerAt (frame _ pointers _ _) last
  have read := holds.block (frame _ stored _ _)
  obtain ⟨second, storedIds, holds⟩ := holds.store (.ids [location.id])
  obtain ⟨third, values, madeValues, holds⟩ := holds.emalloc (.values [0, 0])
  obtain ⟨fourth, storedValues, holds⟩ := holds.store (.values [row.samplingUnit.hits.toInt64,
    (row.samplingUnit.hits * samplingInterval).toInt64 * 1000])
  obtain ⟨fifth, ptr, made, holds⟩ := holds.emalloc (.sample ⟨0, none, 0, none⟩)
  -- the array comes first, then the sample
  have holds : Has fifth ({(arrays.samples, .pointers (slots (samples.map SampleAt.ptr) count))} +
      ({(ptr, .sample ⟨0, none, 0, none⟩)} +
        ({(values, .values [row.samplingUnit.hits.toInt64,
            (row.samplingUnit.hits * samplingInterval).toInt64 * 1000])} +
          ({(ids, .ids [location.id])} + others)))) strings :=
    holds.regroup (by simp only [others]; ac_rfl) rfl
  obtain ⟨sixth, linked, holds⟩ := holds.setPointer (slot_left room) ptr
  rw [add_left_comm] at holds
  obtain ⟨after, storedSample, holds⟩ := holds.store (.sample ⟨1, some ids, 2, some values⟩)
  refine ⟨after, ⟨ptr, ids, values, _, _, _⟩, ?_, holds.regroup ?_ rfl, rfl⟩
  · rw [← counted] at linked ⊢
    simp only [createSample, Row.pointed, madeIds, found, read, storedIds, madeValues,
      storedValues, made, linked, storedSample, Option.bind_eq_bind, Option.bind_some,
      Option.pure_def]
  · rw [sampleArea, area_concat, ← slots_set (by simpa using room), List.length_map]
    simp only [SampleAt.own, others]
    ac_rfl

/-- The messages that have been built, with their addresses. -/
structure Built where
  functions : List FunctionAt
  locations : List LocationAt
  samples : List SampleAt

def Built.cells (built : Built) (arrays : PprofArrays) (count : Nat) :
    Multiset (Nat × PprofBlock) :=
  functionArea arrays.functions count built.functions +
    (locationArea arrays.locations count built.locations +
      sampleArea arrays.samples count built.samples)

/-- The loop has built what it builds without pointers, for `done` units, and added
nothing else to the memory. -/
structure Building (arrays : PprofArrays) (count : Nat) (frame : Multiset (Nat × PprofBlock))
    (held : Multiset (Nat × Bytes)) (done : Nat) (loop : PprofLoop)
    (state : PprofMemory × PprofLocals) (built : Built) : Prop where
  has : Has state.1 (built.cells arrays count + frame) (mapKeys state.2.stringTableMap + held)
  agrees : Agrees state.2.stringTableMap loop.stringTableMap
  functions : built.functions.length = done ∧ state.2.functionsI = done ∧ loop.functionsI = done ∧
    built.functions.map FunctionAt.value = loop.functions
  locations : built.locations.length = done ∧ state.2.locationsI = done ∧ loop.locationsI = done ∧
    built.locations.map LocationAt.value = loop.locations
  samples : built.samples.length = done ∧ state.2.samplesI = done ∧ loop.samplesI = done ∧
    built.samples.map SampleAt.value = loop.samples

/-- The memory in front of the loop has a unit and its strings. -/
structure Holding (frame : Multiset (Nat × PprofBlock)) (held : Multiset (Nat × Bytes))
    (row : Row) : Prop where
  block : row.block ∈ frame
  name : row.nameString ∈ held
  file : row.fileString ∈ held

theorem pprofStep_spec {frame : Multiset (Nat × PprofBlock)} {loop : PprofLoop} {done : Nat}
    {state : PprofMemory × PprofLocals} {built : Built} {row : Row} (samplingInterval : UInt64)
    (building : Building arrays count frame held done loop state built)
    (holding : Holding frame held row) (room : done < count) :
    ∃ after later, PprofMemory.pprofStep arrays samplingInterval state row.bucket = some after ∧
      Building arrays count frame held (done + 1)
        (PhpProf.pprofStep samplingInterval loop row.entry) after later := by
  obtain ⟨memory, locals⟩ := state
  obtain ⟨functionCount, functionsI, loopFunctionsI, functions⟩ := building.functions
  obtain ⟨locationCount, locationsI, loopLocationsI, locations⟩ := building.locations
  obtain ⟨sampleCount, samplesI, loopSamplesI, samples⟩ := building.samples
  have has := building.has
  have unit : memory.blocks.cells row.ptr = some (.samplingUnit row.pointed) :=
    has.block (Multiset.mem_add.mpr (.inr holding.block))
  simp only [Built.cells, add_assoc] at has
  obtain ⟨first, stringTableMap, function, madeFunction, holds, agrees, functionValue⟩ :=
    createFunction_spec has building.agrees (functionsI.trans functionCount.symm) (by omega)
      holding.name holding.file
  rw [add_left_comm] at holds
  obtain ⟨second, location, madeLocation, holds, id, line⟩ := @createLocation_spec first _ _
    arrays ⟨stringTableMap, locals.samplesI, built.functions.length + 1, locals.locationsI⟩ count
    _ row holds (locationsI.trans locationCount.symm) (by omega)
  have holds : Has second (sampleArea arrays.samples count built.samples +
      (locationArea arrays.locations count (built.locations ++ [location]) +
        (functionArea arrays.functions count (built.functions ++ [function]) + frame)))
      (mapKeys stringTableMap + held) := holds.regroup (by ac_rfl) rfl
  have last : (slots ((built.locations ++ [location]).map LocationAt.ptr) count)[
      built.locations.length + 1 - 1]? = some (some location.ptr) := by
    have slot := @slots_get ((built.locations ++ [location]).map LocationAt.ptr)
      built.locations.length (by simp) count
    simpa using slot
  have pointed : (location.ptr, PprofBlock.location ⟨location.id, 1, 1, some location.lines⟩) ∈
      locationArea arrays.locations count (built.locations ++ [location]) :=
    mem_area (List.mem_append_right _ (List.mem_singleton_self _)) (by simp [LocationAt.own])
  obtain ⟨after, sample, madeSample, holds, sampleValue⟩ := @createSample_spec second _ _
    arrays ⟨stringTableMap, locals.samplesI, built.functions.length + 1,
      built.locations.length + 1⟩ count _ location row _ samplingInterval holds
    (samplesI.trans sampleCount.symm) (by omega) (Multiset.mem_add.mpr (.inl mem_area_array)) last
    (Multiset.mem_add.mpr (.inl pointed))
  refine ⟨⟨after, stringTableMap, built.samples.length + 1, built.functions.length + 1,
    built.locations.length + 1⟩, ⟨built.functions ++ [function], built.locations ++ [location],
    built.samples ++ [sample]⟩, ?_, holds.regroup ?_ rfl, agrees, ?_, ?_, ?_⟩
  · simp only [PprofMemory.pprofStep, Row.bucket, unit, madeFunction, madeLocation, madeSample,
      Option.bind_eq_bind, Option.bind_some]
  · simp only [Built.cells]
    ac_rfl
  · simp [PhpProf.pprofStep, Row.entry, functions, functionValue, functionCount, loopFunctionsI]
  · simp [PhpProf.pprofStep, Row.entry, locations, LocationAt.value, id, line, locationCount,
      functionCount, loopLocationsI, loopFunctionsI]
  · simp [PhpProf.pprofStep, Row.entry, samples, sampleValue, id, sampleCount, locationCount,
      loopLocationsI, loopSamplesI]

/-- The loop over all units. -/
theorem pprofLoop_spec {frame : Multiset (Nat × PprofBlock)} {loop : PprofLoop}
    {state : PprofMemory × PprofLocals} {built : Built} {rows : List Row}
    (samplingInterval : UInt64)
    (building : Building arrays rows.length frame held 0 loop state built)
    (holding : ∀ row ∈ rows, Holding frame held row) :
    ∃ after later, (rows.map Row.bucket).foldlM (PprofMemory.pprofStep arrays samplingInterval)
        state = some after ∧
      Building arrays rows.length frame held rows.length
        ((rows.map Row.entry).foldl (PhpProf.pprofStep samplingInterval) loop) after later := by
  have looped : Succeeds (rows.foldlM
      (fun state row => PprofMemory.pprofStep arrays samplingInterval state row.bucket) state)
      (fun after => ∃ later, Building arrays rows.length frame held rows.length
        ((rows.map Row.entry).foldl (PhpProf.pprofStep samplingInterval) loop) after later) := by
    refine Succeeds.foldlM (fun passed state => ∃ built, Building arrays rows.length frame held
      passed.length ((passed.map Row.entry).foldl (PhpProf.pprofStep samplingInterval) loop)
      state built) ?_ ⟨built, building⟩
    rintro passed row rest split state ⟨built, building⟩
    have room : passed.length < rows.length := by simp [split]
    obtain ⟨after, later, stepped, building⟩ :=
      pprofStep_spec samplingInterval building (holding row (by simp [split])) room
    refine ⟨after, stepped, later, ?_⟩
    simpa using building
  obtain ⟨after, ended, later, building⟩ := looped
  refine ⟨after, later, ?_, building⟩
  rw [List.foldlM_map]
  exact ended

/-! ## Reading the profile back -/

theorem readFunction_spec {function : FunctionAt} (has : Has memory blocks strings)
    (member : ∀ cell ∈ function.own, cell ∈ blocks) :
    memory.readFunction function.ptr = some function.value := by
  have found := has.block (member _ (Multiset.mem_singleton_self _))
  simp only [readFunction, found, Option.bind_eq_bind, Option.bind_some, Option.pure_def]

theorem readLocation_spec {location : LocationAt} (has : Has memory blocks strings)
    (member : ∀ cell ∈ location.own, cell ∈ blocks) :
    memory.readLocation location.ptr = some location.value := by
  have line := has.block (member (location.line, .line location.first) (by simp [LocationAt.own]))
  have lines := member (location.lines, .pointers [some location.line]) (by simp [LocationAt.own])
  have found := has.block (member
    (location.ptr, .location ⟨location.id, 1, 1, some location.lines⟩) (by simp [LocationAt.own]))
  have read : memory.readLine location.line = some location.first := by
    simp only [readLine, line, Option.bind_eq_bind, Option.bind_some, Option.pure_def]
  have all : memory.elements 1 location.lines memory.readLine = some [location.first] := by
    have first := has.pointerAt lines (show [some location.line][0]? = _ from rfl)
    simp [elements, first, read]
  simp only [readLocation, found, all, Option.bind_eq_bind, Option.bind_some, Option.pure_def]
  rfl

theorem readSample_spec {sample : SampleAt} (has : Has memory blocks strings)
    (member : ∀ cell ∈ sample.own, cell ∈ blocks) :
    memory.readSample sample.ptr = some sample.value := by
  have ids := has.block (member (sample.ids, .ids [sample.id]) (by simp [SampleAt.own]))
  have values := has.block (member (sample.values, .values [sample.hits, sample.nanoseconds])
    (by simp [SampleAt.own]))
  have found := has.block (member (sample.ptr, .sample ⟨1, some sample.ids, 2, some sample.values⟩)
    (by simp [SampleAt.own]))
  simp only [readSample, found, ids, values, Option.bind_eq_bind, Option.bind_some, Option.pure_def]
  rfl

theorem indices_eq (agrees : Agrees stringTableMap interner) :
    interner.map.entries =
      stringTableMap.map.entries.map fun entry => (entry.1, entry.2.index) := by
  rw [← agrees.map]
  rfl

/-- The elements of the string table are assigned one after another. -/
theorem pointedWrites_dense (agrees : Agrees stringTableMap interner) :
    (PprofMemory.stringTableWrites stringTableMap).map Prod.fst =
      List.range stringTableMap.i := by
  rw [agrees.i, ← PprofProofs.stringTableWrites_dense]
  simp [PprofMemory.stringTableWrites, stringTableWrites, indices_eq agrees]

theorem stringTable_filled (agrees : Agrees stringTableMap interner) :
    Slots.fillWithin stringTableMap.i (PprofMemory.stringTableWrites stringTableMap) =
      some (Slots.fill stringTableMap.i (PprofMemory.stringTableWrites stringTableMap)) := by
  apply Slots.fillWithin_eq
  intro write member
  have listed := List.mem_map_of_mem (f := Prod.fst) member
  rw [pointedWrites_dense agrees] at listed
  exact List.mem_range.mp listed

/-- The pointers of the string table lead to the strings, as C sees them. -/
theorem readSlots_spec (has : Has memory blocks strings) (agrees : Agrees stringTableMap interner)
    (member : ∀ string ∈ mapKeys stringTableMap, string ∈ strings) :
    (Slots.fill stringTableMap.i (PprofMemory.stringTableWrites stringTableMap)).mapM
        memory.readSlot =
      some (Slots.fill interner.next (stringTableWrites interner)) := by
  rw [Slots.fill_dense (PprofProofs.stringTableWrites_dense interner),
    Slots.fill_dense (pointedWrites_dense agrees)]
  simp only [PprofMemory.stringTableWrites, stringTableWrites, indices_eq agrees, List.map_cons,
    List.map_map, List.mapM_cons]
  have texts : (stringTableMap.map.entries.map ((fun write => some write.2) ∘
      fun entry => (entry.2.index, CharPointer.val entry.2.key))).mapM memory.readSlot =
      some (stringTableMap.map.entries.map ((fun write => some write.2) ∘
        (fun entry => (entry.2, Text.cString entry.1)) ∘
          fun entry => (entry.1, entry.2.index))) := by
    apply mapM_map
    intro entry listed
    have held := has.zstrVal (member (entry.2.key, entry.1)
      (Multiset.mem_coe.mpr (List.mem_map.mpr ⟨entry, listed, rfl⟩)))
    simp [readSlot, readString, held]
  rw [texts]
  rfl

/-- What packing finds behind the pointers is what has been built. -/
theorem readProfile_spec {loop : PprofLoop} {built : Built} {done : Nat} (config : ProfConfig)
    (startTime endTime : UInt64) (sampleType : List Profiles.ValueType)
    (periodType : Profiles.ValueType)
    (building : Building arrays count rest held done loop (memory, locals) built) :
    ∃ profile, fillProfile config startTime endTime arrays locals sampleType periodType =
        some profile ∧
      memory.readProfile profile = some {
        nSampleType := 2
        sampleType := sampleType
        nSample := loop.samplesI
        sample := loop.samples
        nMapping := 1
        mapping := [⟨1, true⟩]
        nLocation := loop.locationsI
        location := loop.locations
        nFunction := loop.functionsI
        function := loop.functions
        nStringTable := loop.stringTableMap.next
        stringTable := Slots.fill loop.stringTableMap.next (stringTableWrites loop.stringTableMap)
        timeNanos := startTime.toInt64
        durationNanos := (endTime - startTime).toInt64
        periodType := periodType
        period := config.samplingInterval.toInt64 } := by
  obtain ⟨functionCount, functionsI, loopFunctionsI, functions⟩ := building.functions
  obtain ⟨locationCount, locationsI, loopLocationsI, locations⟩ := building.locations
  obtain ⟨sampleCount, samplesI, loopSamplesI, samples⟩ := building.samples
  simp only at functionsI locationsI samplesI
  have has := building.has
  have readFunctions : memory.elements built.functions.length arrays.functions
      memory.readFunction = some (built.functions.map FunctionAt.value) :=
    elements_spec has
      (fun _ member => Multiset.mem_add.mpr (.inl (Multiset.mem_add.mpr (.inl member))))
      fun _ member => readFunction_spec has member
  have others : ∀ cell, cell ∈ locationArea arrays.locations count built.locations +
      sampleArea arrays.samples count built.samples → cell ∈ built.cells arrays count + rest :=
    fun _ member => Multiset.mem_add.mpr (.inl (Multiset.mem_add.mpr (.inr member)))
  have readLocations : memory.elements built.locations.length arrays.locations
      memory.readLocation = some (built.locations.map LocationAt.value) :=
    elements_spec has (fun cell member => others cell (Multiset.mem_add.mpr (.inl member)))
      fun _ member => readLocation_spec has member
  have readSamples : memory.elements built.samples.length arrays.samples
      memory.readSample = some (built.samples.map SampleAt.value) :=
    elements_spec has (fun cell member => others cell (Multiset.mem_add.mpr (.inr member)))
      fun _ member => readSample_spec has member
  have indexed : locals.stringTableMap.i = loop.stringTableMap.next := building.agrees.i
  have readStrings := readSlots_spec has building.agrees fun string listed =>
    Multiset.mem_add.mpr (.inl listed)
  simp only [indexed] at readStrings
  rw [functionCount, functions] at readFunctions
  rw [locationCount, locations] at readLocations
  rw [sampleCount, samples] at readSamples
  have filled := stringTable_filled building.agrees
  simp only [indexed] at filled
  simp only [fillProfile, indexed, filled, Option.bind_eq_bind, Option.bind_some, Option.pure_def]
  refine ⟨_, rfl, ?_⟩
  simp only [readProfile, functionsI, locationsI, samplesI, readFunctions, readLocations,
    readSamples, readStrings, loopFunctionsI, loopLocationsI, loopSamplesI, Option.bind_eq_bind,
    Option.bind_some, Option.pure_def]

/-! ## Packing, compressing and writing -/

/-- What has been compressed is in a string of its own. The buffer is read as far as the
stream counts it, and the string is not overrun. -/
theorem gzencode_spec {env : PprofFileEnv} (bounds : env.KeepsBounds) {buf : Nat} {input : Bytes}
    {len : UInt64} (whole : input.length = len.toNat) (has : Has memory blocks strings)
    (member : (buf, .bytes input) ∈ blocks) :
    (PhpProf.gzencode env.zlib env.scaled input len = none ∧
      ∃ after, memory.gzencode env buf len = some (after, none) ∧ Has after blocks strings) ∨
    ∃ out after str, PhpProf.gzencode env.zlib env.scaled input len = some out ∧
      memory.gzencode env buf len = some (after, some str) ∧
      Has after blocks ({(str, out)} + strings) := by
  have found := has.block member
  by_cases init : env.zlib.deflateInit2 gzipParams = .ok
  · have counted : (gzencodeStream env.scaled input len).availIn.toNat ≤ input.length := by
      simp only [gzencodeStream, UInt64.toNat_toUInt32, whole]
      exact Nat.mod_le _ _
    have written := bounds.deflate (gzencodeStream env.scaled input len)
    have within : ¬ (input.length < (gzencodeStream env.scaled input len).availIn.toNat ∨
        (gzencodeStream env.scaled input len).availOut.toNat <
          (env.zlib.deflate (gzencodeStream env.scaled input len)).2.length) := by
      omega
    obtain ⟨first, str, made, holds⟩ :=
      has.zendStringInit (env.zlib.deflate (gzencodeStream env.scaled input len)).2
    by_cases ended : (env.zlib.deflate (gzencodeStream env.scaled input len)).1 = .streamEnd
    · refine .inr ⟨_, first, str, ?_, ?_, holds⟩
      · simp [PhpProf.gzencode, init, ended]
      · simp [PprofMemory.gzencode, init, found, within, made, ended]
    · obtain ⟨after, released, holds⟩ := holds.zendStringRelease
      refine .inl ⟨?_, after, ?_, holds⟩
      · simp [PhpProf.gzencode, init, ended]
      · simp [PprofMemory.gzencode, init, found, within, made, ended, released]
  · refine .inl ⟨?_, memory, ?_, has⟩
    · simp [PhpProf.gzencode, init]
    · simp [PprofMemory.gzencode, init]

/-- The block of the buffer, when there is one. -/
def bufferCell (packed : Bytes) (buf : Option Nat) : Multiset (Nat × PprofBlock) :=
  buf.elim 0 fun ptr => {(ptr, .bytes packed)}

/-- What is written is what is written of the profile behind the pointers, and only
the buffer is left of what writing takes. -/
theorem writePprof_spec {env : PprofFileEnv} (bounds : env.KeepsBounds)
    (has : Has memory blocks strings)
    {pointed : PointedProfile} {profile : Profiles.Profile} {message : Perftools.Profile}
    (read : memory.readProfile pointed = some profile)
    (complete : profile.message = some message) :
    ∃ after buf, memory.writePprof env pointed =
        some (after, buf, PhpProf.writePprof env message) ∧
      Has after (bufferCell (env.protobufC.pack message) buf + blocks) strings := by
  have fits := Nat.not_lt.mpr (bounds.pack message)
  by_cases room : env.emalloc (env.protobufC.getPackedSize message)
  · obtain ⟨first, buf, made, holds⟩ := has.emalloc (.bytes (env.protobufC.pack message))
    by_cases whole : UInt64.ofNat (env.protobufC.pack message).length =
        env.protobufC.getPackedSize message
    · have length : (env.protobufC.pack message).length =
          (env.protobufC.getPackedSize message).toNat := by
        have small := lt_of_le_of_lt (bounds.pack message)
          (env.protobufC.getPackedSize message).toNat_lt
        rw [← whole, UInt64.toNat_ofNat_of_lt' small]
      rcases gzencode_spec bounds length holds
        (Multiset.mem_add.mpr (.inl (Multiset.mem_singleton_self _))) with
        ⟨failed, after, compressed, holds⟩ | ⟨out, second, str, done, compressed, holds⟩
      · refine ⟨after, some buf, ?_, holds⟩
        simp [PprofMemory.writePprof, PhpProf.writePprof, read, complete, room, fits, made, whole,
          failed, compressed]
      · have text := holds.zstrVal (Multiset.mem_add.mpr (.inl (Multiset.mem_singleton_self _)))
        obtain ⟨after, released, holds⟩ := holds.zendStringRelease
        refine ⟨after, some buf, ?_, holds⟩
        simp only [PprofMemory.writePprof, PhpProf.writePprof, read, complete, room, fits, made,
          whole, done, compressed, text, released, Option.bind_eq_bind, Option.bind_some,
          Option.pure_def, Bool.not_true, Bool.false_eq_true, ↓reduceIte, ne_eq, not_true_eq_false]
        split <;> rfl
    · refine ⟨first, some buf, ?_, holds⟩
      simp [PprofMemory.writePprof, PhpProf.writePprof, read, complete, room, fits, made, whole]
  · refine ⟨memory, none, ?_, has.regroup (by simp [bufferCell]) rfl⟩
    simp [PprofMemory.writePprof, PhpProf.writePprof, read, complete, room]

/-! ## Freeing -/

theorem freeFunctions_spec {functions : List FunctionAt} {array : Nat}
    (has : Has memory (functionArea array count functions + rest) strings) :
    ∃ after, memory.freeFunctions array functions.length = some after ∧
      Has after ({(array, .pointers (slots (functions.map FunctionAt.ptr) count))} + rest)
        strings := by
  apply free_loop has
  intro memory rest i function pointer has
  rw [FunctionAt.own, add_left_comm] at has
  obtain ⟨after, freed, holds⟩ := has.efree
  refine ⟨after, ?_, holds⟩
  simp only [pointer, freed, Option.bind_eq_bind, Option.bind_some]

theorem freeLocations_spec {locations : List LocationAt} {array : Nat}
    (has : Has memory (locationArea array count locations + rest) strings) :
    ∃ after, memory.freeLocations array locations.length = some after ∧
      Has after ({(array, .pointers (slots (locations.map LocationAt.ptr) count))} + rest)
        strings := by
  apply free_loop has
  intro memory rest i location pointer has
  have found := has.block (show (location.ptr, PprofBlock.location ⟨location.id, 1, 1,
    some location.lines⟩) ∈ _ by simp [LocationAt.own])
  have line := has.pointerAt (show (location.lines, PprofBlock.pointers [some location.line]) ∈ _ by
    simp [LocationAt.own]) (show [some location.line][0]? = _ from rfl)
  simp only [LocationAt.own, add_assoc] at has
  rw [add_left_comm] at has
  obtain ⟨first, freedLine, holds⟩ := has.efree
  rw [add_left_comm] at holds
  obtain ⟨second, freedLines, holds⟩ := holds.efree
  rw [add_left_comm] at holds
  obtain ⟨after, freed, holds⟩ := holds.efree
  refine ⟨after, ?_, holds⟩
  simp only [pointer, found, line, freedLine, freedLines, freed, Option.bind_eq_bind,
    Option.bind_some]

theorem freeSamples_spec {samples : List SampleAt} {array : Nat}
    (has : Has memory (sampleArea array count samples + rest) strings) :
    ∃ after, memory.freeSamples array samples.length = some after ∧
      Has after ({(array, .pointers (slots (samples.map SampleAt.ptr) count))} + rest)
        strings := by
  apply free_loop has
  intro memory rest i sample pointer has
  have found := has.block (show (sample.ptr, PprofBlock.sample ⟨1, some sample.ids, 2,
    some sample.values⟩) ∈ _ by simp [SampleAt.own])
  simp only [SampleAt.own, add_assoc] at has
  rw [add_left_comm] at has
  obtain ⟨first, freedIds, holds⟩ := has.efree
  rw [add_left_comm] at holds
  obtain ⟨second, freedValues, holds⟩ := holds.efree
  rw [add_left_comm] at holds
  obtain ⟨after, freed, holds⟩ := holds.efree
  refine ⟨after, ?_, holds⟩
  simp only [pointer, found, freedIds, freedValues, freed, Option.bind_eq_bind, Option.bind_some]

private theorem third_first (first second third others : Multiset (Nat × PprofBlock)) :
    first + (second + (third + others)) = third + (first + (second + others)) := by
  ac_rfl

/-- All that the report has allocated is freed, and nothing else. -/
theorem freeAll_spec {built : Built} {packed : Bytes} {buf : Option Nat}
    (has : Has memory (bufferCell packed buf + (built.cells arrays count + rest))
      (mapKeys locals.stringTableMap + held))
    (functions : locals.functionsI = built.functions.length)
    (locations : locals.locationsI = built.locations.length)
    (samples : locals.samplesI = built.samples.length) :
    ∃ after, memory.freeAll arrays locals buf = some after ∧ Has after rest held := by
  have holds : Has memory (functionArea arrays.functions count built.functions +
      (locationArea arrays.locations count built.locations +
        (sampleArea arrays.samples count built.samples + (bufferCell packed buf + rest))))
      (mapKeys locals.stringTableMap + held) :=
    has.regroup (by simp only [Built.cells]; ac_rfl) rfl
  obtain ⟨first, freedFunctions, holds⟩ := freeFunctions_spec holds
  rw [add_left_comm] at holds
  obtain ⟨second, freedLocations, holds⟩ := freeLocations_spec holds
  rw [third_first] at holds
  obtain ⟨third, freedSamples, holds⟩ := freeSamples_spec holds
  rw [third_first] at holds
  obtain ⟨fourth, freedFunctionArray, holds⟩ := holds.efree
  rw [add_left_comm] at holds
  obtain ⟨fifth, freedLocationArray, holds⟩ := holds.efree
  obtain ⟨sixth, freedSampleArray, holds⟩ := holds.efree
  obtain ⟨seventh, freedBuffer, holds⟩ : ∃ seventh, sixth.efreeOrNull buf = some seventh ∧
      Has seventh rest (mapKeys locals.stringTableMap + held) := by
    cases buf with
    | none => exact ⟨sixth, rfl, holds.regroup (by simp [bufferCell]) rfl⟩
    | some buf => exact holds.efree
  obtain ⟨after, destroyed, holds⟩ := destroyMap_spec holds
  refine ⟨after, ?_, holds⟩
  rw [← functions] at freedFunctions
  rw [← locations] at freedLocations
  rw [← samples] at freedSamples
  simp only [freeAll, freedFunctions, freedLocations, freedSamples, freedFunctionArray,
    freedLocationArray, freedSampleArray, freedBuffer, destroyed, Option.bind_eq_bind,
    Option.bind_some]

/-! ## The report -/

variable {rows : List Row}

theorem reportPprof_spec {env : PprofFileEnv} (bounds : env.KeepsBounds) (config : ProfConfig)
    (startTime endTime : UInt64) {table : OrderedTable Bytes Bucket}
    (buckets : table.entries = rows.map Row.bucket)
    {samplingUnits : OrderedTable Bytes ProfSamplingUnit}
    (entries : samplingUnits.entries = rows.map Row.entry)
    (has : Has memory rest held) (holding : ∀ row ∈ rows, Holding rest held row) :
    ∃ after, memory.reportPprof env config startTime endTime table =
        some (after, PhpProf.writePprof env (PprofFileProofs.packedMessage
          (buildPprof config startTime endTime samplingUnits))) ∧
      Has after rest held := by
  have none_yet : Has memory rest (mapKeys ⟨.empty, 1⟩ + held) :=
    has.regroup rfl (by simp [mapKeys, OrderedTable.empty])
  have blank : Agrees ⟨.empty, 1⟩ .empty := ⟨rfl, rfl⟩
  obtain ⟨first, samplesMap, samplesType, holds, agrees⟩ :=
    pprofValueType_spec none_yet blank "samples" "count"
  obtain ⟨second, cpuMap, cpuType, holds, agrees⟩ :=
    pprofValueType_spec holds agrees "cpu" "nanoseconds"
  obtain ⟨third, stringTableMap, periodType, holds, agrees⟩ :=
    pprofValueType_spec holds agrees "cpu" "nanoseconds"
  obtain ⟨fourth, samples, madeSamples, holds⟩ :=
    holds.emalloc (.pointers (List.replicate rows.length none))
  obtain ⟨fifth, locations, madeLocations, holds⟩ :=
    holds.emalloc (.pointers (List.replicate rows.length none))
  obtain ⟨sixth, functions, madeFunctions, holds⟩ :=
    holds.emalloc (.pointers (List.replicate rows.length none))
  let arrays : PprofArrays := ⟨samples, locations, functions⟩
  have nothing_built : (Built.mk [] [] []).cells arrays rows.length + rest =
      {(functions, .pointers (List.replicate rows.length none))} +
        ({(locations, .pointers (List.replicate rows.length none))} +
          ({(samples, .pointers (List.replicate rows.length none))} + rest)) := by
    simp only [Built.cells, functionArea, locationArea, sampleArea, area_nil, arrays, add_assoc]
  have start : Building arrays rows.length rest held 0 ⟨_, 0, [], 0, [], 0, []⟩
      (sixth, ⟨stringTableMap, 0, 0, 0⟩) ⟨[], [], []⟩ :=
    ⟨holds.regroup nothing_built.symm rfl, agrees, ⟨rfl, rfl, rfl, rfl⟩, ⟨rfl, rfl, rfl, rfl⟩,
      ⟨rfl, rfl, rfl, rfl⟩⟩
  obtain ⟨⟨seventh, locals⟩, built, looped, building⟩ :=
    pprofLoop_spec config.samplingInterval start holding
  let samplesValue := pprofValueType .empty "samples" "count"
  let cpuValue := pprofValueType samplesValue.1 "cpu" "nanoseconds"
  obtain ⟨pointed, filled, read⟩ := readProfile_spec config startTime endTime
    [samplesValue.2, cpuValue.2] (pprofValueType cpuValue.1 "cpu" "nanoseconds").2 building
  rw [← entries] at read
  have complete := PprofFileProofs.message_complete (PprofFileProofs.assembled_complete
    (PprofProofs.buildPprof_assembled config startTime endTime samplingUnits))
  obtain ⟨eighth, buf, written, holds⟩ := writePprof_spec bounds building.has read complete
  obtain ⟨after, freed, holds⟩ := freeAll_spec holds
    (building.functions.2.1.trans building.functions.1.symm)
    (building.locations.2.1.trans building.locations.1.symm)
    (building.samples.2.1.trans building.samples.1.symm)
  refine ⟨after, ?_, holds⟩
  simp only [arrays, samplesValue, cpuValue] at looped filled written freed
  simp only [reportPprof, samplesType, cpuType, periodType, buckets, List.length_map, madeSamples,
    madeLocations, madeFunctions, looped, filled, written, freed, Option.bind_eq_bind,
    Option.bind_some, Option.pure_def]
  rfl

end PhpProf.PprofMemoryProofs
