import Mathlib.Data.List.TakeWhile
import SentryCpp.Foundation.Loop
import SentryCpp.Foundation.Multimap

/-!
A multimap with the nodes that hold its entries, so that an iterator to an
entry can be told from one to an entry that has been erased. Erasing a key
erases the nodes of all its entries; the iterators to these nodes may be used no
more, and the others stay as they are.

`eraseExpired` is the range-based `for` over a multimap that erases the key of
every expired entry in its body. The first expired entry takes the node with it
that the loop stands on, and the loop advances from there.
-/

/-- The nodes in the order of iteration. A node is known by its address. -/
structure NodeMap (κ ν : Type*) [LinearOrder κ] where
  nodes : List (Nat × κ × ν)
  nodup : (nodes.map Prod.fst).Nodup
  sorted : (nodes.map Prod.snd).Pairwise fun a b => a.1 ≤ b.1

/-- The node of an erased entry is read or advanced from. -/
inductive IteratorFault where
  | erased
  deriving DecidableEq

namespace NodeMap

variable {κ ν : Type*} [LinearOrder κ]

def toMultimap (m : NodeMap κ ν) : Multimap κ ν := ⟨m.nodes.map Prod.snd, m.sorted⟩

def erase (m : NodeMap κ ν) (key : κ) : NodeMap κ ν where
  nodes := m.nodes.filter fun node => node.2.1 ≠ key
  nodup := m.nodup.sublist (List.filter_sublist.map _)
  sorted := m.sorted.sublist (List.filter_sublist.map _)

/-- An iterator to the first of these nodes; `none` is `end()`. -/
def iteratorTo (nodes : List (Nat × κ × ν)) : Option Nat := nodes.head?.map Prod.fst

/-- The nodes from an address on. -/
def nodesFrom (m : NodeMap κ ν) (address : Nat) : List (Nat × κ × ν) :=
  m.nodes.dropWhile fun node => node.1 ≠ address

/-- `*it`. -/
def deref (m : NodeMap κ ν) (address : Nat) : Except IteratorFault (κ × ν) :=
  match m.nodesFrom address with
  | node :: _ => .ok node.2
  | [] => .error .erased

/-- `++it`. -/
def next (m : NodeMap κ ν) (address : Nat) : Except IteratorFault (Option Nat) :=
  match m.nodesFrom address with
  | _ :: rest => .ok (iteratorTo rest)
  | [] => .error .erased

/-- The state of the loop, with the entries that it has visited. -/
structure Traversal (κ ν : Type*) [LinearOrder κ] where
  container : NodeMap κ ν
  iterator : Option Nat
  visited : List (κ × ν)

variable (expired : κ × ν → Bool)

def Traversal.round (_ : Nat) (t : Traversal κ ν) : Except IteratorFault (Traversal κ ν) :=
  match t.iterator with
  | none => .ok t
  | some address =>
      match t.container.deref address with
      | .error e => .error e
      | .ok entry =>
          let container := if expired entry then t.container.erase entry.1 else t.container
          match container.next address with
          | .error e => .error e
          | .ok iterator => .ok ⟨container, iterator, t.visited ++ [entry]⟩

/-- `for (auto const& entry : m) if (expired(entry)) m.erase(entry.first);` -/
def eraseExpired (m : NodeMap κ ν) (fuel : Nat) :
    Option (Except IteratorFault (Traversal κ ν)) :=
  Loop.loop (fun t => t.iterator.isSome) (Traversal.round expired) fuel 0
    ⟨m, iteratorTo m.nodes, []⟩

variable {expired}

/-- Every multimap can lie in memory. -/
theorem exists_toMultimap_eq (m : Multimap κ ν) :
    ∃ table : NodeMap κ ν, table.toMultimap = m := by
  have hkeys : (m.toList.zipIdx.map Prod.swap).map Prod.fst = List.range m.toList.length := by
    rw [List.map_map, List.range_eq_range']
    exact List.zipIdx_map_snd 0 m.toList
  have hentries : (m.toList.zipIdx.map Prod.swap).map Prod.snd = m.toList := by
    rw [List.map_map]
    exact List.zipIdx_map_fst 0 m.toList
  refine ⟨⟨m.toList.zipIdx.map Prod.swap, ?_, ?_⟩, ?_⟩
  · rw [hkeys]
    exact List.nodup_range
  · rw [hentries]
    exact m.sorted
  · simp only [toMultimap, hentries]

theorem nodesFrom_of_split {m : NodeMap κ ν} {before rest : List (Nat × κ × ν)}
    {node : Nat × κ × ν} (h : m.nodes = before ++ node :: rest) :
    m.nodesFrom node.1 = node :: rest := by
  have hnodup := m.nodup
  rw [h, List.map_append, List.map_cons, List.nodup_append] at hnodup
  have hbefore : ∀ other ∈ before,
      (fun other : Nat × κ × ν => decide (other.1 ≠ node.1)) other := by
    intro other hother
    have hne := hnodup.2.2 other.1 (List.mem_map_of_mem hother) node.1 (by simp)
    simpa using hne
  rw [nodesFrom, h, List.dropWhile_append_of_pos hbefore, List.dropWhile_cons_of_neg (by simp)]

theorem nodesFrom_eq_nil {m : NodeMap κ ν} {address : Nat}
    (h : ∀ node ∈ m.nodes, node.1 ≠ address) : m.nodesFrom address = [] := by
  rw [nodesFrom, List.dropWhile_eq_nil_iff]
  intro node hnode
  simpa using h node hnode

/-- A live entry is visited, and the loop goes on with the next one. -/
theorem round_of_live {t : Traversal κ ν} {before rest : List (Nat × κ × ν)}
    {node : Nat × κ × ν} (h : t.container.nodes = before ++ node :: rest)
    (hit : t.iterator = some node.1) (hlive : expired node.2 = false) (i : Nat) :
    Traversal.round expired i t =
      .ok ⟨t.container, iteratorTo rest, t.visited ++ [node.2]⟩ := by
  simp [Traversal.round, hit, deref, next, nodesFrom_of_split h, hlive]

/-- An expired entry is erased with its node, from which the loop advances. -/
theorem round_of_expired {t : Traversal κ ν} {before rest : List (Nat × κ × ν)}
    {node : Nat × κ × ν} (h : t.container.nodes = before ++ node :: rest)
    (hit : t.iterator = some node.1) (hexpired : expired node.2 = true) (i : Nat) :
    Traversal.round expired i t = .error .erased := by
  have hgone : ∀ other ∈ (t.container.erase node.2.1).nodes, other.1 ≠ node.1 := by
    intro other hother heq
    have hnodup := t.container.nodup
    obtain ⟨hmem, hkey⟩ := List.mem_filter.mp hother
    have hnode : node ∈ t.container.nodes := by simp [h]
    obtain rfl := List.inj_on_of_nodup_map hnodup hmem hnode heq
    simp at hkey
  simp [Traversal.round, hit, deref, next, nodesFrom_of_split h, hexpired,
    nodesFrom_eq_nil hgone]

/-- The rest of the loop over live entries. -/
theorem loop_of_live {m : NodeMap κ ν} {before rest : List (Nat × κ × ν)}
    (h : m.nodes = before ++ rest) (hlive : ∀ node ∈ rest, expired node.2 = false) (i : Nat)
    (visited : List (κ × ν)) :
    Loop.loop (fun t => t.iterator.isSome) (Traversal.round expired) rest.length i
        ⟨m, iteratorTo rest, visited⟩ =
      some (.ok ⟨m, none, visited ++ rest.map Prod.snd⟩) := by
  induction rest generalizing before i visited with
  | nil => simp [Loop.loop, iteratorTo]
  | cons node rest ih =>
      have hnode : expired node.2 = false := hlive node (by simp)
      have hsplit : m.nodes = (before ++ [node]) ++ rest := by simp [h]
      rw [List.length_cons, Loop.loop_of_body_ok rfl (round_of_live h rfl hnode i),
        ih hsplit (fun other hother => hlive other (by simp [hother]))]
      simp

/-- The rest of the loop over live entries in front of an expired one. -/
theorem loop_of_expired {m : NodeMap κ ν} {before live rest : List (Nat × κ × ν)}
    {node : Nat × κ × ν} (h : m.nodes = before ++ (live ++ node :: rest))
    (hlive : ∀ node ∈ live, expired node.2 = false) (hexpired : expired node.2 = true) (i : Nat)
    (visited : List (κ × ν)) :
    Loop.loop (fun t => t.iterator.isSome) (Traversal.round expired) (live.length + 1) i
        ⟨m, iteratorTo (live ++ node :: rest), visited⟩ =
      some (.error .erased) := by
  induction live generalizing before i visited with
  | nil => exact Loop.loop_of_body_error rfl (round_of_expired h rfl hexpired i)
  | cons first live ih =>
      have hfirst : expired first.2 = false := hlive first (by simp)
      have hsplit : m.nodes = (before ++ [first]) ++ (live ++ node :: rest) := by simp [h]
      rw [List.length_cons, Loop.loop_of_body_ok rfl (round_of_live h rfl hfirst i)]
      exact ih hsplit (fun other hother => hlive other (by simp [hother])) (i + 1) _

/-- Without an expired entry the loop visits all entries and changes nothing. -/
theorem eraseExpired_of_live {m : NodeMap κ ν}
    (hlive : ∀ entry ∈ m.toMultimap.toList, expired entry = false) :
    m.eraseExpired expired m.nodes.length = some (.ok ⟨m, none, m.toMultimap.toList⟩) := by
  have hnodes : ∀ node ∈ m.nodes, expired node.2 = false := by
    intro node hnode
    exact hlive node.2 (List.mem_map_of_mem hnode)
  exact loop_of_live (List.nil_append _).symm hnodes 0 []

/-- With an expired entry the loop advances from an erased node. -/
theorem eraseExpired_of_expired {m : NodeMap κ ν}
    (hexpired : ∃ entry ∈ m.toMultimap.toList, expired entry = true) :
    ∃ fuel, m.eraseExpired expired fuel = some (.error .erased) := by
  obtain ⟨entry, hmem, hentry⟩ := hexpired
  obtain ⟨node, hnode, rfl⟩ := List.mem_map.mp hmem
  have hfound : (m.nodes.find? fun node => expired node.2).isSome := by
    rw [List.find?_isSome]
    exact ⟨node, hnode, hentry⟩
  obtain ⟨first, hfirst⟩ := Option.isSome_iff_exists.mp hfound
  obtain ⟨hfirst, live, rest, hsplit, hlive⟩ := List.find?_eq_some_iff_append.mp hfirst
  refine ⟨live.length + 1, ?_⟩
  rw [eraseExpired, hsplit]
  apply loop_of_expired ((List.nil_append _).trans hsplit.symm).symm _ hfirst
  intro node hnode
  simpa using hlive node hnode

/-- The loop comes to its end if and only if no entry is expired. -/
theorem eraseExpired_ends_iff (m : NodeMap κ ν) :
    (∃ fuel t, m.eraseExpired expired fuel = some (.ok t)) ↔
      ∀ entry ∈ m.toMultimap.toList, expired entry = false := by
  constructor
  · rintro ⟨fuel, t, hok⟩
    by_contra hall
    have hexpired : ∃ entry ∈ m.toMultimap.toList, expired entry = true := by simpa using hall
    obtain ⟨fuel', herror⟩ := eraseExpired_of_expired hexpired
    cases Loop.loop_unique hok herror
  · intro hlive
    exact ⟨_, _, eraseExpired_of_live hlive⟩

/-- The loop visits every entry and leaves the live ones if and only if it has
nothing to erase. -/
theorem eraseExpired_keeps_iff (m : NodeMap κ ν) :
    (∃ fuel t, m.eraseExpired expired fuel = some (.ok t) ∧
      t.visited = m.toMultimap.toList ∧
      t.container.toMultimap.toList =
        m.toMultimap.toList.filter fun entry => !expired entry) ↔
      ∀ entry ∈ m.toMultimap.toList, expired entry = false := by
  rw [← eraseExpired_ends_iff]
  constructor
  · rintro ⟨fuel, t, hok, -⟩
    exact ⟨fuel, t, hok⟩
  · intro hends
    have hlive := m.eraseExpired_ends_iff.mp hends
    refine ⟨_, _, eraseExpired_of_live hlive, rfl, ?_⟩
    symm
    rw [List.filter_eq_self]
    intro entry hentry
    simp [hlive entry hentry]

end NodeMap
