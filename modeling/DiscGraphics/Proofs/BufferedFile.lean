import DiscGraphics.BufferedFile
import DiscGraphics.Proofs.Chronicle

/-!
What goes through a buffer. The bytes reach the file in order, but for those that wait, up to the
first write that is refused.
-/
namespace DiscGraphics

/-- Some pieces one behind the other. -/
def joined : List ByteArray → ByteArray
  | [] => .empty
  | data :: rest => data ++ joined rest

theorem joined_append (xs ys : List ByteArray) : joined (xs ++ ys) = joined xs ++ joined ys := by
  induction xs with
  | nil => exact ByteArray.empty_append.symm
  | cons data rest ih => rw [List.cons_append, joined, joined, ih, ByteArray.append_assoc]

theorem joined_singleton (data : ByteArray) : joined [data] = data := ByteArray.append_empty

/-- Writes that a file took. -/
def FileHandle.took (file : FileHandle) (writes : List ByteArray) : List Deed :=
  writes.map fun data => .wrote file data (.ok ())

theorem FileHandle.took_append (file : FileHandle) (xs ys : List ByteArray) :
    file.took (xs ++ ys) = file.took xs ++ file.took ys := List.map_append

namespace BufferedFile

/-- What giving more bytes to a buffer comes to, and all that is asked of the file for it. A write
that is refused is the last one, and at least so many bytes were not taken before it. -/
inductive Pours (b : BufferedFile) (data : ByteArray) (least : Nat) :
    List Deed → Except HostError Unit → BufferedFile → Prop where
  | taken (writes : List ByteArray) (waiting : ByteArray) : waiting.size ≤ capacity →
      joined writes ++ waiting = b.waiting ++ data →
      Pours b data least (b.handle.took writes) (.ok ()) ⟨b.handle, waiting⟩
  | refused (writes : List ByteArray) (waiting rest lost : ByteArray) (e : HostError)
      (count : Nat) : waiting.size ≤ capacity → joined writes ++ rest = b.waiting ++ data →
      least ≤ rest.size →
      Pours b data least (b.handle.took writes ++ [.wrote b.handle lost (.error (e, count))])
        (.error e) ⟨b.handle, waiting⟩

section Pours

variable {b b' b'' : BufferedFile} {data more : ByteArray} {least least' : Nat}
  {deeds deeds' : List Deed} {answer : Except HostError Unit}

theorem Pours.size_le (h : b.Pours data least deeds answer b') : b'.waiting.size ≤ capacity := by
  cases h with
  | taken _ _ hsize => exact hsize
  | refused _ _ _ _ _ _ hsize => exact hsize

theorem Pours.nothing (h : b.waiting.size ≤ capacity) (least : Nat) :
    b.Pours .empty least [] (.ok ()) b := by
  refine .taken [] b.waiting h ?_
  rw [joined, ByteArray.empty_append, ByteArray.append_empty]

theorem Pours.weaken (h : b.Pours data least deeds answer b') (hle : least' ≤ least) :
    b.Pours data least' deeds answer b' := by
  cases h with
  | taken writes waiting hsize hjoined => exact .taken writes waiting hsize hjoined
  | refused writes waiting rest lost e count hsize hjoined hrest =>
    exact .refused writes waiting rest lost e count hsize hjoined (Nat.le_trans hle hrest)

theorem Pours.andThen (h : b.Pours data least deeds (.ok ()) b')
    (h' : b'.Pours more least' deeds' answer b'') :
    b.Pours (data ++ more) least' (deeds ++ deeds') answer b'' := by
  cases h with
  | taken writes waiting _ hjoined =>
    have hall {later rest : ByteArray} (hlater : later ++ rest = waiting ++ more) :
        joined writes ++ later ++ rest = b.waiting ++ (data ++ more) := by
      rw [ByteArray.append_assoc, hlater, ← ByteArray.append_assoc, hjoined, ByteArray.append_assoc]
    cases h' with
    | taken writes' waiting' hsize hjoined' =>
      rw [← FileHandle.took_append]
      refine .taken _ _ hsize ?_
      rw [joined_append, hall hjoined']
    | refused writes' waiting' rest lost e count hsize hjoined' hrest =>
      rw [← List.append_assoc, ← FileHandle.took_append]
      refine .refused _ _ rest lost e count hsize ?_ hrest
      rw [joined_append, hall hjoined']

/-- Bytes that there is room for wait. -/
theorem Pours.waits (h : b.waiting.size + data.size ≤ capacity) (least : Nat) :
    b.Pours data least [] (.ok ()) ⟨b.handle, b.waiting ++ data⟩ := by
  refine .taken [] _ ?_ ByteArray.empty_append
  rwa [ByteArray.size_append]

/-- What comes behind a refusal is not asked for. -/
theorem Pours.stop {e : HostError} (h : b.Pours data least deeds (.error e) b')
    (more : ByteArray) : b.Pours (data ++ more) (least + more.size) deeds (.error e) b' := by
  cases h with
  | refused writes waiting rest lost _ count hsize hjoined hrest =>
    refine .refused _ _ (rest ++ more) lost e count hsize ?_ ?_
    · rw [← ByteArray.append_assoc, hjoined, ByteArray.append_assoc]
    · rw [ByteArray.size_append]
      exact Nat.add_le_add_right hrest _

end Pours

variable {ω : Type} [Files (StateM ω)] {b : BufferedFile}

theorem flush_pours (h : b.waiting.size ≤ capacity) (c : Chronicle ω) :
    let r := (b.flush : StateM (Chronicle ω) _).run c
    ∃ deeds, c.Grows deeds [] r.2 ∧ b.Pours .empty b.waiting.size deeds r.1.1 r.1.2 ∧
      (r.1.1 = .ok () → r.1.2.waiting = .empty) := by
  rw [flush]
  by_cases hnone : b.waiting.size = 0
  · rw [if_pos hnone]
    exact ⟨[], .refl c, .nothing h _, fun _ => ByteArray.size_eq_zero_iff.mp hnone⟩
  · rw [if_neg hnone]
    have hgrows := c.grows_write b.handle b.waiting
    obtain ⟨⟨answer, c'⟩, hrun⟩ : ∃ r,
      (Files.write b.handle b.waiting : StateM (Chronicle ω) _).run c = r := ⟨_, rfl⟩
    rw [run_bind_of_run hrun]
    rw [hrun] at hgrows
    cases answer with
    | ok =>
      refine ⟨_, hgrows, .taken [b.waiting] .empty (Nat.zero_le _) ?_, fun _ => rfl⟩
      rw [joined_singleton]
    | error refusal =>
      obtain ⟨e, count⟩ := refusal
      refine ⟨_, hgrows, .refused [] _ b.waiting b.waiting e count ?_ ?_ (Nat.le_refl _), nofun⟩
      · rw [ByteArray.size_extract]
        omega
      · rw [joined, ByteArray.empty_append, ByteArray.append_empty]

theorem makeRoom_pours (h : b.waiting.size ≤ capacity) (bytes : Nat) (c : Chronicle ω) :
    let r := (b.makeRoom bytes : StateM (Chronicle ω) _).run c
    ∃ deeds, c.Grows deeds [] r.2 ∧ b.Pours .empty (capacity - bytes) deeds r.1.1 r.1.2 ∧
      (r.1.1 = .ok () → r.1.2.waiting.size + bytes ≤ capacity ∨ r.1.2.waiting = .empty) := by
  rw [makeRoom]
  split
  · next hroom =>
    exact ⟨[], .refl c, .nothing h _, fun _ => .inl hroom⟩
  · obtain ⟨deeds, hgrows, hpours, hnone⟩ := flush_pours h c
    exact ⟨deeds, hgrows, hpours.weaken (by omega), fun hok => .inr (hnone hok)⟩

/-- With nothing waiting, bytes are written past the buffer. -/
theorem pours_of_grows_write {data : ByteArray} {answer : Except (HostError × Nat) Unit}
    {c c' : Chronicle ω} (hnone : b.waiting = .empty)
    (hgrows : c.Grows [.wrote b.handle data answer] [] c') :
    ∃ deeds, c.Grows deeds [] c' ∧ b.Pours data data.size deeds (answer.mapError Prod.fst) b := by
  have hsize : b.waiting.size ≤ capacity := by
    rw [hnone]
    exact Nat.zero_le _
  refine ⟨_, hgrows, ?_⟩
  cases answer with
  | ok =>
    refine .taken [data] b.waiting hsize ?_
    rw [joined_singleton, hnone, ByteArray.empty_append, ByteArray.append_empty]
  | error refusal =>
    obtain ⟨e, count⟩ := refusal
    refine .refused [] b.waiting data data e count hsize ?_ (Nat.le_refl _)
    rw [joined, hnone]

theorem write_pours (h : b.waiting.size ≤ capacity) (data : ByteArray) (c : Chronicle ω) :
    let r := (b.write data : StateM (Chronicle ω) _).run c
    ∃ deeds, c.Grows deeds [] r.2 ∧ b.Pours data capacity deeds r.1.1 r.1.2 := by
  rw [write]
  obtain ⟨deeds, hgrows, hpours, hroom⟩ := makeRoom_pours h data.size c
  obtain ⟨⟨⟨answer, b'⟩, c'⟩, hrun⟩ : ∃ r,
    (b.makeRoom data.size : StateM (Chronicle ω) _).run c = r := ⟨_, rfl⟩
  rw [run_bind_of_run hrun]
  rw [hrun] at hgrows hpours hroom
  cases answer with
  | error e =>
    have hstop := hpours.stop data
    rw [ByteArray.empty_append] at hstop
    exact ⟨deeds, hgrows, hstop.weaken (by omega)⟩
  | ok =>
    replace hroom : b'.waiting.size + data.size ≤ capacity ∨ b'.waiting = .empty := hroom rfl
    have hmore {later : List Deed} {answer : Except HostError Unit} {b'' : BufferedFile}
        (hlater : b'.Pours data capacity later answer b'') :
        b.Pours data capacity (deeds ++ later) answer b'' := by
      have hboth := hpours.andThen hlater
      rwa [ByteArray.empty_append] at hboth
    by_cases hsmall : data.size < capacity
    · simp only [if_pos hsmall]
      have hfits : b'.waiting.size + data.size ≤ capacity := by
        obtain hfits | hnone := hroom
        · exact hfits
        · rw [hnone, ByteArray.size_empty]
          omega
      have hboth := hmore (.waits hfits capacity)
      rw [List.append_nil] at hboth
      exact ⟨deeds, hgrows, hboth⟩
    · simp only [if_neg hsmall]
      have hnone : b'.waiting = .empty := by
        obtain hfits | hnone := hroom
        · exact ByteArray.size_eq_zero_iff.mp (by omega)
        · exact hnone
      obtain ⟨later, hlater, hdirect⟩ := pours_of_grows_write hnone (c'.grows_write b'.handle data)
      replace hdirect := hdirect.weaken (Nat.le_of_not_lt hsmall)
      obtain ⟨⟨answer, c''⟩, hwritten⟩ : ∃ r,
        (Files.write b'.handle data : StateM (Chronicle ω) _).run c' = r := ⟨_, rfl⟩
      rw [run_bind_of_run hwritten]
      rw [hwritten] at hlater hdirect
      cases answer with
      | ok => exact ⟨deeds ++ later, hgrows.trans hlater, hmore hdirect⟩
      | error refusal => exact ⟨deeds ++ later, hgrows.trans hlater, hmore hdirect⟩

theorem writeAll_pours (h : b.waiting.size ≤ capacity) (pieces : List ByteArray)
    (c : Chronicle ω) :
    let r := (b.writeAll pieces : StateM (Chronicle ω) _).run c
    ∃ deeds, c.Grows deeds [] r.2 ∧ b.Pours (joined pieces) capacity deeds r.1.1 r.1.2 := by
  induction pieces generalizing b c with
  | nil => exact ⟨[], .refl c, .nothing h _⟩
  | cons data rest ih =>
    rw [writeAll]
    obtain ⟨deeds, hgrows, hpours⟩ := write_pours h data c
    obtain ⟨⟨⟨answer, b'⟩, c'⟩, hrun⟩ : ∃ r,
      (b.write data : StateM (Chronicle ω) _).run c = r := ⟨_, rfl⟩
    rw [run_bind_of_run hrun]
    rw [hrun] at hgrows hpours
    cases answer with
    | error e => exact ⟨deeds, hgrows, (hpours.stop _).weaken (Nat.le_add_right ..)⟩
    | ok =>
      obtain ⟨later, hlater, hrest⟩ := ih hpours.size_le c'
      exact ⟨deeds ++ later, hgrows.trans hlater, hpours.andThen hrest⟩

end BufferedFile
end DiscGraphics
