import DiscGraphics.FileTree

/-!
What an open file holds: nothing when it is made or emptied, and then all that is written to it, in
order. The tree in memory keeps its files so.
-/
namespace DiscGraphics

/-- Files that keep what is written to them. In a sound state a file that is opened for writing is
empty; what is written to it comes behind what it holds, and an attempt to open another that is
refused leaves it alone. -/
structure Retains (ω : Type) [Files (StateM ω)] (Sound : ω → Prop)
    (Holds : ω → FileHandle → String → Prop) : Prop where
  create_sound : ∀ {w w' : ω} {path : String} {r : Except HostError FileHandle}, Sound w →
    (Files.create path : StateM ω _).run w = (r, w') → Sound w'
  append_sound : ∀ {w w' : ω} {h : FileHandle} {text : String}, Sound w →
    (Files.append h text : StateM ω _).run w = ((), w') → Sound w'
  created : ∀ {w w' : ω} {path : String} {h : FileHandle}, Sound w →
    (Files.create path : StateM ω _).run w = (.ok h, w') → Holds w' h ""
  refused : ∀ {w w' : ω} {path : String} {e : HostError} {h : FileHandle} {text : String},
    Holds w h text → (Files.create path : StateM ω _).run w = (.error e, w') → Holds w' h text
  appended : ∀ {w w' : ω} {h : FileHandle} {text more : String}, Holds w h text →
    (Files.append h more : StateM ω _).run w = ((), w') → Holds w' h (text ++ more)

namespace FileTree

/-- Whether every file that an entry leads to is one of the first `n`. -/
inductive Entry.Below (n : Nat) : Entry → Prop where
  | file {k : Nat} : k < n → Below n (.file k)
  | directory {entries : List (String × Entry)} : (∀ e ∈ entries, Below n e.2) →
      Below n (.directory entries)

namespace Entry

variable {n : Nat} {entries : List (String × Entry)}

theorem Below.mono {m : Nat} (h : n ≤ m) {e : Entry} (he : e.Below n) : e.Below m := by
  induction he with
  | file hk => exact .file (Nat.lt_of_lt_of_le hk h)
  | directory _ ih => exact .directory ih

theorem Below.mem (h : (Entry.directory entries).Below n) : ∀ e ∈ entries, e.2.Below n := by
  cases h with
  | directory hall => exact hall

theorem Below.lookup (h : (Entry.directory entries).Below n) {name : String} {e : Entry}
    (he : entries.lookup name = some e) : e.Below n := by
  obtain ⟨front, back, rfl, -⟩ := List.lookup_eq_some_iff.mp he
  exact h.mem _ (List.mem_append_right _ List.mem_cons_self)

theorem below_rename (h : (Entry.directory entries).Below n) (name : String) {e : Entry}
    (he : e.Below n) : (directory (rename name (some e) entries)).Below n := by
  have hall := h.mem
  refine .directory fun entry hmem => ?_
  simp only [rename] at hmem
  split at hmem
  · obtain ⟨old, hold, rfl⟩ := List.mem_map.mp hmem
    split
    · exact he
    · exact hall old hold
  · rcases List.mem_cons.mp hmem with rfl | hold
    · exact he
    · exact hall entry hold

/-- A file that is there can be given any place. -/
theorem below_put {e : Entry} (he : e.Below n) (names : List String)
    (h : (Entry.directory entries).Below n) : (directory (put (some e) names entries)).Below n := by
  induction names generalizing entries with
  | nil => exact h
  | cons name rest ih =>
    cases rest with
    | nil => exact below_rename h name he
    | cons next later =>
      simp only [put]
      split
      · next sub hsub => exact below_rename h name (ih (h.lookup hsub))
      · exact h

end Entry

/-- Every name in a tree leads to a node that is there, and none is a device. -/
structure Sound (t : FileTree) : Prop where
  names : (Entry.directory t.root).Below t.nodes.size
  plain : ∀ node ∈ t.nodes, node.refusal = none

variable {t t' : FileTree}

/-- Whether the files on a trail are among the nodes. -/
def Trail.Below (n : Nat) (trail : Trail) : Prop := ∀ step ∈ trail, ∀ e ∈ step.2, e.Below n

theorem Sound.below_at (hs : t.Sound) {trail : Trail} (h : trail.Below t.nodes.size) {e : Entry}
    (he : t.at? trail = some e) : e.Below t.nodes.size := by
  cases trail with
  | nil =>
    cases he
    exact hs.names
  | cons step rest => exact h step List.mem_cons_self e he

theorem Sound.below_walk (hs : t.Sound) {steps : List String} {trail place : Trail}
    (htrail : trail.Below t.nodes.size) (h : t.walk trail steps = .ok place) :
    place.Below t.nodes.size := by
  induction steps generalizing trail with
  | nil =>
    cases h
    exact htrail
  | cons s rest ih =>
    rw [walk] at h
    split at h
    · next entries hdir =>
      have hentries := hs.below_at htrail hdir
      split at h
      · exact ih htrail h
      · split at h
        · exact ih (fun step hstep => htrail step (List.mem_of_mem_tail hstep)) h
        · split at h
          · cases h
          · refine ih (List.forall_mem_cons.mpr ⟨?_, htrail⟩) h
            exact fun e he => hentries.lookup he
    · cases h
    · cases h

theorem Sound.below_locate (hs : t.Sound) {path : String} {place : Trail}
    (h : t.locate path = .ok place) : place.Below t.nodes.size := by
  have hnone : Trail.Below t.nodes.size [] := nofun
  unfold locate at h
  split at h
  · cases h
  · split at h
    · cases h
    · split at h
      · cases h
      · split at h <;> exact hs.below_walk hnone h

/-- A file that is about to be written has a node, in a tree that is still sound. -/
theorem Sound.openForWriting (hs : t.Sound) {path : String} {n : Nat}
    (h : t.openForWriting path = .ok (n, t')) : t'.Sound ∧ n < t'.nodes.size := by
  unfold FileTree.openForWriting at h
  split at h
  · cases h
  · next place hplace =>
    split at h
    · cases h
    · next k hfile =>
      cases h
      have hbelow := hs.below_at (hs.below_locate hplace) hfile
      cases hbelow with
      | file hk => exact ⟨hs, hk⟩
    · cases h
      have hsize : (t.nodes.push { content := .empty }).size = t.nodes.size + 1 :=
        Array.size_push ..
      have hroot : (Entry.directory t.root).Below (t.nodes.size + 1) :=
        hs.names.mono (Nat.le_succ _)
      refine ⟨⟨?_, ?_⟩, ?_⟩
      · rw [hsize]
        exact Entry.below_put (.file (Nat.lt_succ_self _)) _ hroot
      · intro node hnode
        obtain hold | rfl := Array.mem_push.mp hnode
        · exact hs.plain node hold
        · rfl
      · exact Nat.lt_of_lt_of_eq (Nat.lt_succ_self _) hsize.symm

/-- What an open file holds: a text that ends where the next one is to be written. -/
def Holds (t : FileTree) (h : FileHandle) (text : String) : Prop :=
  ∃ n node, t.handles[h.number]? = some ⟨some n, text.toUTF8.size⟩ ∧ t.nodes[n]? = some node ∧
    node.content = text.toUTF8 ∧ node.refusal = none

/-- A node that is changed is still there, and what is open does not matter. -/
theorem Sound.modify (hs : t.Sound) (n : Nat) {f : FileNode → FileNode}
    (hf : ∀ node, node.refusal = none → (f node).refusal = none) (handles : Array OpenFile) :
    Sound { t with nodes := t.nodes.modify n f, handles := handles } := by
  refine ⟨?_, fun node hnode => ?_⟩
  · rw [Array.size_modify]
    exact hs.names
  · obtain ⟨i, hi, rfl⟩ := Array.mem_iff_getElem.mp hnode
    have hold := hs.plain _ (Array.getElem_mem (Array.size_modify ▸ hi))
    rw [Array.getElem_modify]
    split
    · exact hf _ hold
    · exact hold

theorem Sound.create (hs : t.Sound) {path : String} {h : FileHandle}
    (hc : t.create path = .ok (h, t')) : t'.Sound ∧ t'.Holds h "" := by
  unfold FileTree.create at hc
  split at hc
  · cases hc
  · next n tree hopen =>
    obtain ⟨hsound, hn⟩ := hs.openForWriting hopen
    have hplain : tree.nodes[n].refusal = none := hsound.plain _ (Array.getElem_mem hn)
    cases hc
    refine ⟨hsound.modify n (f := fun node =>
      if node.refusal.isNone then { node with content := .empty } else node) ?_ _, n,
      { tree.nodes[n] with content := .empty }, ?_, ?_, rfl, hplain⟩
    · intro node hnode
      split <;> exact hnode
    · rw [Array.getElem?_push, if_pos rfl]
      rfl
    · rw [truncate, Array.getElem?_modify, if_pos rfl, Array.getElem?_eq_getElem hn]
      simp [hplain]

theorem Sound.write (hs : t.Sound) (h : FileHandle) (data : ByteArray) :
    (t.write h data).2.Sound := by
  unfold FileTree.write
  split
  · split
    · exact hs
    · exact hs.modify _ (f := fun node => { node with content := writeAt node.content _ data })
        (fun _ hnode => hnode) _
  · exact hs

theorem Holds.write {h : FileHandle} {text : String} (hh : t.Holds h text) (more : String) :
    (t.write h more.toUTF8).2.Holds h (text ++ more) := by
  obtain ⟨n, node, hopen, hnode, hbytes, hplain⟩ := hh
  have hboth : (text ++ more).toUTF8 = text.toUTF8 ++ more.toUTF8 := String.toByteArray_append
  have htakes : t.nodes[n]?.bind (·.refusal) = none := by
    rw [hnode]
    exact hplain
  simp only [FileTree.write, hopen, htakes]
  refine ⟨n, { node with content := writeAt node.content text.toUTF8.size more.toUTF8 }, ?_, ?_,
    ?_, hplain⟩
  · simp only [Array.getElem?_modify, if_pos, hopen, Option.map_some, hboth, ByteArray.size_append]
  · simp only [Array.getElem?_modify, if_pos, hnode, Option.map_some]
  · rw [writeAt, if_pos (congrArg ByteArray.size hbytes), hboth, ← hbytes]

theorem sound_empty : FileTree.empty.Sound where
  names := .directory fun _ he => by
    cases List.mem_singleton.mp he
    exact .directory nofun
  plain := nofun

/-- An action on the tree is done or refused, and changes the tree in the first case only. -/
theorem attempt_cases {β : Type} {f : FileTree → Except HostError (β × FileTree)}
    {r : Except HostError β} (h : (attempt f : StateM FileTree _).run t = (r, t')) :
    (∃ b, f t = .ok (b, t') ∧ r = .ok b) ∨ ∃ e, r = .error e ∧ t' = t := by
  change attempt f t = _ at h
  unfold attempt at h
  split at h
  · next b tree hok =>
    cases h
    exact .inl ⟨b, hok, rfl⟩
  · cases h
    exact .inr ⟨_, rfl, rfl⟩

/-- The tree in memory keeps what is written to the files it has open. -/
theorem retains : Retains FileTree Sound Holds := by
  constructor
  · intro t t' path r hs hcreate
    obtain ⟨h, hok, -⟩ | ⟨e, -, rfl⟩ := attempt_cases hcreate
    · exact (hs.create hok).1
    · exact hs
  · intro t t' h text hs happend
    cases happend
    exact hs.write h _
  · intro t t' path h hs hcreate
    obtain ⟨_, hok, heq⟩ | ⟨e, heq, -⟩ := attempt_cases hcreate
    · cases heq
      exact (hs.create hok).2
    · cases heq
  · intro t t' path e h text hh hcreate
    obtain ⟨_, -, heq⟩ | ⟨_, -, rfl⟩ := attempt_cases hcreate
    · cases heq
    · exact hh
  · intro t t' h text more hh happend
    cases happend
    exact hh.write more

end FileTree
end DiscGraphics
