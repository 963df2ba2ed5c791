import DiscGraphics.Clock
import DiscGraphics.Files

/-!
Worlds whose files are watched. A chronicle sets down what is asked of the files, with their answer,
and what is read from them; the programs that run in such a world do not notice.
-/
namespace DiscGraphics

theorem run_bind_of_run {σ α β : Type} {x : StateM σ α} {s s' : σ} {a : α} (h : x.run s = (a, s'))
    (f : α → StateM σ β) : (x >>= f).run s = (f a).run s' := by
  rw [StateT.run_bind, h]
  rfl

/-- What was asked of the files, and their answer. -/
inductive Deed where
  | madeDirectories (path : String) (answer : Except HostError Unit)
  /-- What a path leads to was replaced, or given another mode. -/
  | changed (path : String) (answer : Except HostError Unit)
  | created (path : String) (answer : Except HostError FileHandle)
  | wrote (file : FileHandle) (data : ByteArray) (answer : Except (HostError × Nat) Unit)

namespace Deed

def Refused : Deed → Prop
  | madeDirectories _ answer | changed _ answer => answer.isOk = false
  | created _ answer => answer.isOk = false
  | wrote _ _ answer => answer.isOk = false

/-- The files of a world can answer so: somewhere they do. -/
def Answered (ω : Type) [Files (StateM ω)] : Deed → Prop
  | madeDirectories path answer =>
    ∃ w : ω, ((Files.makeDirectories path : StateM ω _).run w).1 = answer
  | changed _ _ => True
  | created path answer => ∃ w : ω, ((Files.create path : StateM ω _).run w).1 = answer
  | wrote file data answer => ∃ w : ω, ((Files.write file data : StateM ω _).run w).1 = answer

end Deed

/-- A world, what was asked of its files and what was read from the open ones. Lines of a log are
left out. -/
structure Chronicle (ω : Type) where
  world : ω
  deeds : List Deed
  received : List UInt8

namespace Chronicle

variable {ω : Type}

/-- Act in the world, and set down what follows from the answer. -/
def watch {α : Type} (x : StateM ω α) (deeds : α → List Deed) (bytes : α → List UInt8) :
    StateM (Chronicle ω) α := fun c =>
  let (answer, w) := x.run c.world
  (answer, ⟨w, c.deeds ++ deeds answer, c.received ++ bytes answer⟩)

def ignore {α : Type} (x : StateM ω α) : StateM (Chronicle ω) α :=
  watch x (fun _ => []) fun _ => []

def ask {α : Type} (x : StateM ω α) (deed : α → Deed) : StateM (Chronicle ω) α :=
  watch x (fun answer => [deed answer]) fun _ => []

/-- The bytes that a read brought. -/
def brought : Except HostError ByteArray → List UInt8
  | .ok data => data.toList
  | .error _ => []

variable [Files (StateM ω)]

instance : Files (StateM (Chronicle ω)) where
  load path := ignore (Files.load path)
  store path data := ask (Files.store path data) (.changed path)
  makeDirectories path := ask (Files.makeDirectories path) (.madeDirectories path)
  create path := ask (Files.create path) (.created path)
  append file text := ignore (Files.append file text)
  write file data := ask (Files.write file data) (.wrote file data)
  size path := ignore (Files.size path)
  openToRead path := ignore (Files.openToRead path)
  readPortion file n := watch (Files.readPortion file n) (fun _ => []) brought
  setMode path mode := ask (Files.setMode path mode) (.changed path)

instance [Clock (StateM ω)] : Clock (StateM (Chronicle ω)) where
  now := ignore Clock.now

/-- What a program adds to a chronicle. -/
structure Grows (c : Chronicle ω) (added : List Deed) (bytes : List UInt8) (c' : Chronicle ω) :
    Prop where
  deeds : c'.deeds = c.deeds ++ added
  received : c'.received = c.received ++ bytes
  answered : ∀ deed ∈ added, deed.Answered ω

protected theorem Grows.trans {c₁ c₂ c₃ : Chronicle ω} {xs ys : List Deed} {as bs : List UInt8}
    (h : c₁.Grows xs as c₂) (h' : c₂.Grows ys bs c₃) : c₁.Grows (xs ++ ys) (as ++ bs) c₃ := by
  refine ⟨?_, ?_, ?_⟩
  · rw [h'.deeds, h.deeds, List.append_assoc]
  · rw [h'.received, h.received, List.append_assoc]
  · exact List.forall_mem_append.mpr ⟨h.answered, h'.answered⟩

protected theorem Grows.refl (c : Chronicle ω) : c.Grows [] [] c :=
  ⟨(List.append_nil _).symm, (List.append_nil _).symm, nofun⟩

theorem grows_ignore {α : Type} (x : StateM ω α) (c : Chronicle ω) :
    c.Grows [] [] ((ignore x).run c).2 :=
  ⟨rfl, rfl, nofun⟩

/-- What is asked of the files stands in the chronicle, with their answer. -/
theorem grows_ask {α : Type} {x : StateM ω α} (deed : α → Deed)
    (h : ∀ w, (deed (x.run w).1).Answered ω) (c : Chronicle ω) :
    c.Grows [deed ((ask x deed).run c).1] [] ((ask x deed).run c).2 :=
  ⟨rfl, rfl, fun _ hdeed => List.mem_singleton.mp hdeed ▸ h c.world⟩

theorem grows_makeDirectories (path : String) (c : Chronicle ω) :
    let r := (Files.makeDirectories path : StateM (Chronicle ω) _).run c
    c.Grows [.madeDirectories path r.1] [] r.2 :=
  grows_ask (.madeDirectories path) (fun w => ⟨w, rfl⟩) c

theorem grows_create (path : String) (c : Chronicle ω) :
    let r := (Files.create path : StateM (Chronicle ω) _).run c
    c.Grows [.created path r.1] [] r.2 :=
  grows_ask (.created path) (fun w => ⟨w, rfl⟩) c

theorem grows_write (file : FileHandle) (data : ByteArray) (c : Chronicle ω) :
    let r := (Files.write file data : StateM (Chronicle ω) _).run c
    c.Grows [.wrote file data r.1] [] r.2 :=
  grows_ask (.wrote file data) (fun w => ⟨w, rfl⟩) c

/-- What is read from an open file stands in the chronicle. -/
theorem grows_readPortion (file : FileHandle) (n : Nat) (c : Chronicle ω) :
    let r := (Files.readPortion file n : StateM (Chronicle ω) _).run c
    c.Grows [] (brought r.1) r.2 :=
  ⟨rfl, rfl, nofun⟩

end Chronicle
end DiscGraphics
