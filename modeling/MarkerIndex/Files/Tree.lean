import MarkerIndex.Error
/-!
A tree of files as a list of what lies at which place. A place is given by the names that lead to it
from the root, which is always a directory. Contents are bytes; they may be no text. A file has one
place: there are no links, neither hard nor symbolic ones. A write that is begun may break off, and
the tree tells of the writes to come which of them do.
-/

namespace MarkerIndex

/-- Contents are compared byte by byte, whatever other instances are in sight. -/
instance decidableEqContents : DecidableEq ByteArray :=
  ByteArray.instDecidableEq

/-- What answers at a special file, such as a device or a socket. It keeps nothing of what is
written to it. -/
structure Device where
  /-- What is read from it, unless it cannot be read. -/
  source : Option ByteArray
  /-- Why it takes nothing that is written to it, if it does not. -/
  refusal : Option FileProblem
  deriving DecidableEq

/-- The device that is read as empty and takes everything. -/
def Device.null : Device := ⟨some .empty, none⟩

inductive FileNode
  | directory
  | file (contents : ByteArray)
  | special (device : Device)
  deriving DecidableEq

/-- The names that lead from the root to a place. -/
abbrev Place := List String

/-- Devices that can be read lie in one directory, under names that are not hidden. What lies
elsewhere gives a reader something only if it is a file. -/
def FileNode.fits (place : Place) : FileNode → Bool
  | .special ⟨some _, _⟩ =>
    match place with
    | ["dev", name] => name.toList.head? ≠ some '.'
    | _ => false
  | _ => true

/-- What breaks off a write: how many bytes are taken before, and what is answered then. -/
structure WriteFault where
  taken : Nat
  problem : FileProblem
  deriving DecidableEq

/-- Without the entries for one key the others are found as before. -/
theorem lookup_filter_ne {α β : Type} [BEq α] [LawfulBEq α] [DecidableEq α]
    (entries : List (α × β)) (key other : α) :
    (entries.filter (·.1 ≠ key)).lookup other = if other = key then none
    else entries.lookup other := by
  induction entries with
  | nil => simp
  | cons entry entries ih =>
      obtain ⟨first, value⟩ := entry
      by_cases hfirst : first = key
      · rw [List.filter_cons_of_neg (by simp [hfirst]), ih]
        by_cases hother : other = key
        · simp [hother]
        · have hne : (other == first) = false := by simpa [hfirst] using hother
          simp [hother, List.lookup_cons, hne]
      · rw [List.filter_cons_of_pos (by simp [hfirst]), List.lookup_cons, List.lookup_cons, ih]
        by_cases hother : other = first
        · simp [hother, hfirst]
        · have hne : (other == first) = false := by simpa using hother
          simp [hne]

/-- The entries for one key give way to a new one. -/
theorem lookup_filter_ne_concat {α β : Type} [BEq α] [LawfulBEq α] [DecidableEq α]
    (entries : List (α × β)) (key other : α) (value : β) :
    (entries.filter (·.1 ≠ key) ++ [(key, value)]).lookup other =
      if other = key then some value else entries.lookup other := by
  rw [List.lookup_append, lookup_filter_ne, List.lookup_cons]
  by_cases h : other = key
  · simp [h]
  · have hne : (other == key) = false := by simpa using h
    simp [h, hne]

/-- What lies at a place, by a list of what lies where. -/
def nodeAmong? (entries : List (Place × FileNode)) (place : Place) : Option FileNode :=
  if place = [] then some .directory else entries.lookup place

structure FileTree where
  entries : List (Place × FileNode)
  /-- What breaks off the writes to come, in their order. A write gets through where nothing stands
  for it. -/
  faults : List (Option WriteFault)
  names : ∀ entry ∈ entries, FilePath.AreNames entry.1
  parents : ∀ entry ∈ entries, nodeAmong? entries entry.1.dropLast = some .directory
  /-- Every place is listed once. -/
  once : (entries.map (·.1)).Nodup
  devices : ∀ entry ∈ entries, entry.2.fits entry.1 = true
  deriving DecidableEq

namespace FileTree

/-- A tree in which no file was made yet. The null device is there from the start. -/
def empty : FileTree where
  entries := [(["dev"], .directory), (["dev", "null"], .special .null)]
  faults := []
  names := by decide
  parents := by decide
  once := by decide
  devices := by decide

/-- What lies at a place, if anything does. -/
def node? (t : FileTree) (place : Place) : Option FileNode :=
  nodeAmong? t.entries place

def isDirectory (t : FileTree) (place : Place) : Bool :=
  t.node? place = some .directory

/-- The contents of the file at a place, if one lies there. -/
def contents? (t : FileTree) (place : Place) : Option ByteArray :=
  match t.node? place with
  | some (.file contents) => some contents
  | _ => none

def isFile (t : FileTree) (place : Place) : Bool :=
  (t.contents? place).isSome

def exists? (t : FileTree) (place : Place) : Bool :=
  (t.node? place).isSome

theorem ne_nil_of_node? {t : FileTree} {place : Place} (h : t.node? place ≠ some .directory) :
    place ≠ [] := by
  rintro rfl
  exact h rfl

theorem mem_entries_of_node? {t : FileTree} {place : Place} {node : FileNode} (hplace : place ≠ [])
    (hnode : t.node? place = some node) : (place, node) ∈ t.entries := by
  rw [node?, nodeAmong?, if_neg hplace, List.lookup_eq_some_iff] at hnode
  obtain ⟨before, after, hentries, -⟩ := hnode
  simp [hentries]

theorem areNames_of_node? {t : FileTree} {place : Place} {node : FileNode}
    (hnode : t.node? place = some node) : FilePath.AreNames place := by
  by_cases hplace : place = []
  · simp [hplace, FilePath.AreNames]
  · exact t.names _ (mem_entries_of_node? hplace hnode)

/-- What lies at other places. -/
def others (t : FileTree) (place : Place) : List (Place × FileNode) :=
  t.entries.filter (·.1 ≠ place)

theorem lookup_others (t : FileTree) {place other : Place} (h : other ≠ place) :
    (t.others place).lookup other = t.entries.lookup other := by
  rw [others, lookup_filter_ne, if_neg h]

theorem mem_of_mem_others {t : FileTree} {place : Place} {entry : Place × FileNode}
    (h : entry ∈ t.others place) : entry ∈ t.entries :=
  (List.mem_filter.mp h).1

theorem ne_of_mem_others {t : FileTree} {place : Place} {entry : Place × FileNode}
    (h : entry ∈ t.others place) : entry.1 ≠ place := by
  simpa using (List.mem_filter.mp h).2

theorem once_others (t : FileTree) (place : Place) : ((t.others place).map (·.1)).Nodup :=
  t.once.sublist (List.filter_sublist.map _)

/-- What lies where a directory does not lie has nothing below it. -/
theorem parent_ne_of_mem {t : FileTree} {place : Place} (h : t.node? place ≠ some .directory)
    {entry : Place × FileNode} (member : entry ∈ t.entries) : entry.1.dropLast ≠ place := by
  rintro rfl
  exact h (t.parents entry member)

/-- Takes away what lies at a place, unless it is a directory. -/
def erase (t : FileTree) (place : Place) : FileTree :=
  if hplace : t.node? place = some .directory then t
  else
    { t with
      entries := t.others place
      names := fun entry member => t.names entry (mem_of_mem_others member)
      parents := by
        intro entry member
        rw [nodeAmong?, lookup_others t (parent_ne_of_mem hplace (mem_of_mem_others member))]
        exact t.parents entry (mem_of_mem_others member)
      once := t.once_others place
      devices := fun entry member => t.devices entry (mem_of_mem_others member) }

/-- Something may come to lie at a place: it has a name that can be spelled, in a directory, and no
directory lies there. -/
structure Admits (t : FileTree) (place : Place) (node : FileNode) : Prop where
  name : ∀ name ∈ place.getLast?, (Component.normal name).IsName
  parent : t.node? place.dropLast = some .directory
  free : t.node? place ≠ some .directory
  fits : node.fits place = true

namespace Admits

variable {t : FileTree} {place : Place} {node : FileNode}

theorem dropLast_ne (h : t.Admits place node) : place.dropLast ≠ place := by
  intro hsame
  have hlength := congrArg List.length hsame
  have hpositive := List.length_pos_iff.mpr (ne_nil_of_node? h.free)
  rw [List.length_dropLast] at hlength
  omega

theorem areNames (h : t.Admits place node) : FilePath.AreNames place := by
  have hplace := ne_nil_of_node? h.free
  intro name member
  rw [← List.dropLast_concat_getLast hplace, List.mem_append, List.mem_singleton] at member
  rcases member with habove | rfl
  · exact areNames_of_node? h.parent name habove
  · exact h.name _ (List.getLast?_eq_some_getLast hplace)

end Admits

instance (t : FileTree) (place : Place) (node : FileNode) : Decidable (t.Admits place node) :=
  decidable_of_iff
    ((∀ name ∈ place.getLast?, (Component.normal name).IsName) ∧
      t.node? place.dropLast = some .directory ∧ t.node? place ≠ some .directory ∧
      node.fits place = true)
    ⟨fun h => ⟨h.1, h.2.1, h.2.2.1, h.2.2.2⟩, fun h => ⟨h.name, h.parent, h.free, h.fits⟩⟩

theorem lookup_put (t : FileTree) (place : Place) (node : FileNode) (other : Place) :
    (t.others place ++ [(place, node)]).lookup other =
      if other = place then some node else t.entries.lookup other :=
  lookup_filter_ne_concat t.entries place other node

/-- Puts something at a place, instead of what lay there before. A place that does not admit it is
left as it is. -/
def put (t : FileTree) (place : Place) (node : FileNode) : FileTree :=
  if h : t.Admits place node then
    { t with
      entries := t.others place ++ [(place, node)]
      names := List.forall_mem_append.mpr
        ⟨fun entry member => t.names entry (mem_of_mem_others member), by
          simpa using h.areNames⟩
      parents := by
        have hparent : ∀ entry : Place × FileNode, entry.1.dropLast ≠ place →
            t.node? entry.1.dropLast = some .directory →
            nodeAmong? (t.others place ++ [(place, node)]) entry.1.dropLast = some .directory := by
          intro entry hne hdirectory
          rwa [nodeAmong?, lookup_put, if_neg hne]
        refine List.forall_mem_append.mpr ⟨fun entry member => ?_, by
          simpa using hparent (place, node) h.dropLast_ne h.parent⟩
        have hold := mem_of_mem_others member
        exact hparent entry (parent_ne_of_mem h.free hold) (t.parents entry hold)
      once := by
        rw [List.map_append, List.nodup_append]
        refine ⟨t.once_others place, List.pairwise_singleton _ _, ?_⟩
        intro other hother _ hnew
        obtain ⟨entry, member, rfl⟩ := List.mem_map.mp hother
        obtain rfl := List.mem_singleton.mp hnew
        exact ne_of_mem_others member
      devices := List.forall_mem_append.mpr
        ⟨fun entry member => t.devices entry (mem_of_mem_others member), by
          simpa using h.fits⟩ }
  else t

/-- Makes a directory where nothing lies. -/
def addDirectory (t : FileTree) (place : Place) : FileTree :=
  if t.exists? place then t else t.put place .directory

/-- Makes all directories on the way to a place, and one at the place. -/
def addDirectories (t : FileTree) (place : Place) : FileTree :=
  (List.range place.length).foldl (fun t n => t.addDirectory (place.take (n + 1))) t

/-- What breaks off the next write that is begun, if anything does. -/
def fault? (t : FileTree) : Option WriteFault :=
  t.faults.head?.join

/-- The tree once a write was begun. -/
def begun (t : FileTree) : FileTree :=
  { t with faults := t.faults.tail }

/-- The text of a file, unless its contents are none. -/
def text? (t : FileTree) (place : Place) : Option String :=
  (t.contents? place).bind String.fromUTF8?

/-- Everything below a directory as texts in their order, directories with a slash at the end. -/
def listing (t : FileTree) (base : Place) : List String :=
  let below := t.entries.filter fun (place, _) =>
    base.isPrefixOf place && base.length < place.length
  (below.map fun (place, node) =>
    String.intercalate "/" (place.drop base.length) ++
      (if node = .directory then "/" else "")).mergeSort
    fun a b => a ≤ b

end FileTree

end MarkerIndex
