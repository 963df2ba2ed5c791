import DiscGraphics.FileTree

/-!
Where a path leads that was joined with a name. An ordinary name leads one step further down, in
words and in a tree of files, but the stem of an ordinary name need not be ordinary.
-/
namespace DiscGraphics
namespace Path

section Pieces

variable {sep : Char} {cs : List Char}

theorem pieces_eq_splitOnP (sep : Char) (cs : List Char) :
    pieces sep cs = cs.splitOnP (· == sep) := by
  induction cs with
  | nil => rfl
  | cons c cs ih =>
    rw [pieces, List.splitOnP_cons_eq_if_modifyHead, ih]
    obtain ⟨p, ps, hp⟩ := List.exists_cons_of_ne_nil (List.splitOnP_ne_nil (· == sep) cs)
    rw [hp]
    by_cases hc : c = sep <;> simp [hc]

theorem pieces_ne_nil (sep : Char) (cs : List Char) : pieces sep cs ≠ [] := by
  rw [pieces_eq_splitOnP]
  exact List.splitOnP_ne_nil _ cs

theorem pieces_append (sep : Char) (xs ys : List Char) :
    pieces sep (xs ++ sep :: ys) = pieces sep xs ++ pieces sep ys := by
  simp only [pieces_eq_splitOnP]
  exact List.splitOnP_append_cons xs ys (beq_self_eq_true sep)

theorem pieces_of_not_mem (h : sep ∉ cs) : pieces sep cs = [cs] := by
  rw [pieces_eq_splitOnP]
  refine List.splitOnP_eq_singleton fun c hc => beq_eq_false_iff_ne.mpr ?_
  rintro rfl
  exact h hc

theorem not_mem_of_mem_pieces {piece : List Char} (h : piece ∈ pieces sep cs) : sep ∉ piece := by
  induction cs generalizing piece with
  | nil =>
    cases List.mem_singleton.mp h
    exact List.not_mem_nil
  | cons c cs ih =>
    rw [pieces] at h
    split at h
    · cases h with
      | head => exact List.not_mem_nil
      | tail _ hrest => exact ih hrest
    · next hc =>
      obtain ⟨p, ps, hp⟩ := List.exists_cons_of_ne_nil (pieces_ne_nil sep cs)
      rw [hp] at h ih
      cases h with
      | head =>
        rw [List.mem_cons, not_or]
        exact ⟨Ne.symm hc, ih List.mem_cons_self⟩
      | tail _ hrest => exact ih (List.mem_cons_of_mem p hrest)

end Pieces

/-- A name that leads from a directory to something in it. -/
structure Ordinary (name : String) : Prop where
  ne_empty : name ≠ ""
  ne_dot : name ≠ "."
  ne_dots : name ≠ ".."
  noSlash : '/' ∉ name.toList

/-- A path leads from another one down through these names. -/
structure Descends (base : String) (names : List String) (p : String) : Prop where
  ordinary : ∀ name ∈ names, Ordinary name
  steps_eq : steps p = steps base ++ names
  isAbsolute_eq : isAbsolute p = isAbsolute base

section Join

variable {name : String}

theorem isAbsolute_of_noSlash (h : '/' ∉ name.toList) : isAbsolute name = false := by
  rw [isAbsolute, beq_eq_false_iff_ne]
  exact fun hhead => h (List.mem_of_head? hhead)

theorem split_of_noSlash (h : '/' ∉ name.toList) : split name = [name] := by
  rw [split, pieces_of_not_mem h, List.map_singleton, String.ofList_toList]

theorem split_append_slash (base name : String) (h : '/' ∉ name.toList) :
    split (base ++ "/" ++ name) = split base ++ [name] := by
  have hlist : (base ++ "/" ++ name).toList = base.toList ++ '/' :: name.toList := by simp
  rw [split, hlist, pieces_append, pieces_of_not_mem h, List.map_append, List.map_singleton,
    String.ofList_toList, split]

/-- A name without slashes is the last piece of the path it is joined to. A slash at the end of the
other path is the one between them, and the blank piece after it goes. -/
theorem split_join {base : String} (hbase : base ≠ "") (h : '/' ∉ name.toList) :
    ∃ front, front ≠ [] ∧ (split base = front ∨ split base = front ++ [""]) ∧
      split (join base name) = front ++ [name] := by
  rw [join, if_neg (by rw [isAbsolute_of_noSlash h]; exact Bool.false_ne_true)]
  have hne (p : String) : split p ≠ [] := by simp [split, pieces_ne_nil]
  split
  · next hslash =>
    obtain ⟨front, hfront⟩ : ∃ front, base = front ++ "/" := by
      have hnil : base.toList ≠ [] := mt String.toList_eq_nil_iff.mp hbase
      rw [List.getLast?_eq_some_getLast hnil, Option.all_some, beq_iff_eq] at hslash
      refine ⟨String.ofList base.toList.dropLast, String.toList_inj.mp ?_⟩
      rw [String.toList_append, String.toList_ofList, ← List.dropLast_concat_getLast hnil, hslash,
        List.dropLast_concat]
      rfl
    subst hfront
    have hblank := split_append_slash front "" (by simp)
    rw [String.append_empty] at hblank
    exact ⟨split front, hne front, .inr hblank, split_append_slash front name h⟩
  · exact ⟨split base, hne base, .inl rfl, split_append_slash base name h⟩

theorem steps_of_split {p s : String} {rest : List String} (h : split p = s :: rest) :
    steps p = (if s == "" then [] else [s]) ++ rest.filter leads := by
  rw [steps, h]

/-- A name without slashes is one more step, unless it is blank or a single dot. -/
theorem steps_join {base : String} (hbase : base ≠ "") (h : '/' ∉ name.toList) :
    steps (join base name) = steps base ++ [name].filter leads := by
  obtain ⟨front, hne, hsplit, hjoin⟩ := split_join hbase h
  obtain ⟨s, rest, rfl⟩ := List.exists_cons_of_ne_nil hne
  rw [List.cons_append] at hjoin hsplit
  rw [steps_of_split hjoin, List.filter_append, ← List.append_assoc]
  rcases hsplit with hs | hs
  · rw [steps_of_split hs]
  · have hblank : [""].filter leads = [] := rfl
    rw [steps_of_split hs, List.filter_append, hblank, List.append_nil]

theorem join_empty (h : '/' ∉ name.toList) : join "" name = name := by
  rw [join, if_neg (by rw [isAbsolute_of_noSlash h]; exact Bool.false_ne_true)]
  exact String.empty_append

theorem isAbsolute_join (base : String) (h : '/' ∉ name.toList) :
    isAbsolute (join base name) = isAbsolute base := by
  by_cases hbase : base = ""
  · rw [hbase, join_empty h, isAbsolute_of_noSlash h]
    rfl
  · have hnil : base.toList ≠ [] := mt String.toList_eq_nil_iff.mp hbase
    obtain ⟨c, cs, hc⟩ := List.exists_cons_of_ne_nil hnil
    rw [join, if_neg (by rw [isAbsolute_of_noSlash h]; exact Bool.false_ne_true)]
    split <;> simp [isAbsolute, hc]

end Join

/-- An ordinary name leads one step down from wherever the path before it leads. -/
theorem Ordinary.descends {name : String} (h : Ordinary name) (base : String) :
    Descends base [name] (join base name) := by
  have hleads : leads name = true := by
    rw [leads, Bool.and_eq_true, bne_iff_ne, bne_iff_ne]
    exact ⟨h.ne_empty, h.ne_dot⟩
  refine ⟨by simpa using h, ?_, isAbsolute_join base h.noSlash⟩
  by_cases hbase : base = ""
  · rw [hbase, join_empty h.noSlash, steps_of_split (split_of_noSlash h.noSlash),
      if_neg (by simpa using h.ne_empty)]
    rfl
  · rw [steps_join hbase h.noSlash, List.filter_cons_of_pos hleads, List.filter_nil]

/-- One or two dots lead down to nothing. -/
theorem not_descends_dots {dots : String} (h : dots = "." ∨ dots = "..") (base name : String) :
    ¬ Descends base [name] (join base dots) := by
  intro hdown
  have hordinary : Ordinary name := hdown.ordinary name List.mem_cons_self
  have hslash : '/' ∉ dots.toList := by rcases h with rfl | rfl <;> decide
  suffices hsame : name = dots by
    subst hsame
    exact h.elim hordinary.ne_dot hordinary.ne_dots
  -- One dot is a step only where a path begins, two dots are one anywhere.
  have hsteps := hdown.steps_eq
  by_cases hbase : base = ""
  · rw [hbase, join_empty hslash, steps_of_split (split_of_noSlash hslash)] at hsteps
    rcases h with rfl | rfl <;> exact (List.singleton_inj.mp hsteps).symm
  · rw [steps_join hbase hslash] at hsteps
    have hmem : name ∈ [dots].filter leads := by
      rw [List.append_cancel_left hsteps]
      exact List.mem_cons_self
    exact List.mem_singleton.mp (List.mem_filter.mp hmem).1

/-- Steps down are taken one after the other. -/
theorem Descends.trans {base p q : String} {names more : List String}
    (h : Descends base names p) (h' : Descends p more q) : Descends base (names ++ more) q := by
  refine ⟨?_, ?_, h'.isAbsolute_eq.trans h.isAbsolute_eq⟩
  · exact List.forall_mem_append.mpr ⟨h.ordinary, h'.ordinary⟩
  · rw [h'.steps_eq, h.steps_eq, List.append_assoc]

section Names

theorem mem_split {p piece : String} (h : piece ∈ split p) : '/' ∉ piece.toList := by
  obtain ⟨cs, hcs, rfl⟩ := List.mem_map.mp h
  rw [String.toList_ofList]
  exact not_mem_of_mem_pieces hcs

theorem mem_steps {p step : String} (h : step ∈ steps p) :
    step ≠ "" ∧ '/' ∉ step.toList := by
  rw [steps] at h
  split at h
  · cases h
  · next s rest hsplit =>
    have hslash (piece : String) (hp : piece ∈ s :: rest) : '/' ∉ piece.toList :=
      mem_split (hsplit ▸ hp)
    rcases List.mem_append.mp h with hfirst | hrest
    · split at hfirst
      · cases hfirst
      · next hne =>
        cases List.mem_singleton.mp hfirst
        exact ⟨by simpa using hne, hslash _ List.mem_cons_self⟩
    · obtain ⟨hmem, hleads⟩ := List.mem_filter.mp hrest
      rw [leads, Bool.and_eq_true, bne_iff_ne] at hleads
      exact ⟨hleads.1, hslash step (List.mem_cons_of_mem s hmem)⟩

/-- The name that a path ends in is ordinary. -/
theorem ordinary_of_fileName? {p name : String} (h : fileName? p = some name) : Ordinary name := by
  unfold fileName? at h
  split at h
  · cases h
  · next last hlast =>
    split at h
    · cases h
    · next hdots =>
      cases h
      obtain ⟨hne, hslash⟩ := mem_steps (List.mem_of_getLast? hlast)
      exact ⟨hne, fun hdot => hdots (.inl hdot), fun hdot => hdots (.inr hdot), hslash⟩

end Names

section Stem

theorem dropWhile_of_not_mem {c : Char} {cs : List Char} (h : c ∉ cs) (rest : List Char) :
    (cs ++ rest).dropWhile (· != c) = rest.dropWhile (· != c) := by
  refine List.dropWhile_append_of_pos fun d hd => bne_iff_ne.mpr ?_
  rintro rfl
  exact h hd

theorem stem_of_dot {before ext : List Char} (hbefore : before ≠ []) (hext : '.' ∉ ext) :
    stem (String.ofList (before ++ '.' :: ext)) = String.ofList before := by
  have hdrop : (before ++ '.' :: ext).reverse.dropWhile (· != '.') = '.' :: before.reverse := by
    rw [List.reverse_append, List.reverse_cons, List.append_assoc,
      dropWhile_of_not_mem (by simpa using hext)]
    rfl
  rw [stem, String.toList_ofList, hdrop, List.drop_one, List.tail_cons, List.reverse_reverse,
    if_neg hbefore]

/-- A name is its own stem unless something stands before its last dot. -/
theorem stem_cases (name : String) :
    stem name = name ∨ ∃ before ext, before ≠ [] ∧ '.' ∉ ext ∧
      name = String.ofList (before ++ '.' :: ext) := by
  by_cases hdot : '.' ∈ name.toList
  · obtain ⟨ext, before, hsplit, hext⟩ :=
      List.eq_append_cons_of_mem (List.mem_reverse.mpr hdot)
    have hname : name.toList = before.reverse ++ '.' :: ext.reverse := by
      rw [← List.reverse_reverse name.toList, hsplit]
      simp
    by_cases hbefore : before = []
    · left
      rw [stem, hsplit, dropWhile_of_not_mem hext, hbefore]
      rfl
    · refine .inr ⟨before.reverse, ext.reverse, by simpa using hbefore, by simpa using hext, ?_⟩
      rw [← hname, String.ofList_toList]
  · left
    have hnone := dropWhile_of_not_mem (mt List.mem_reverse.mp hdot) []
    rw [List.append_nil, List.dropWhile_nil] at hnone
    rw [stem, hnone]
    rfl

/-- Which names have a given stem, beside the stem itself. -/
theorem stem_eq_iff {name before : String} (hbefore : before ≠ "") (hne : name ≠ before) :
    stem name = before ↔ ∃ ext : String, '.' ∉ ext.toList ∧ name = before ++ "." ++ ext := by
  constructor
  · intro h
    obtain hself | ⟨front, ext, hfront, hext, rfl⟩ := stem_cases name
    · exact absurd (hself.symm.trans h) hne
    · rw [stem_of_dot hfront hext] at h
      refine ⟨String.ofList ext, by simpa using hext, ?_⟩
      rw [← h, ← String.toList_inj]
      simp
  · rintro ⟨ext, hext, rfl⟩
    have hlist : before ++ "." ++ ext = String.ofList (before.toList ++ '.' :: ext.toList) := by
      rw [← String.toList_inj]
      simp
    rw [hlist, stem_of_dot (mt String.toList_eq_nil_iff.mp hbefore) hext, String.ofList_toList]

theorem stem_ne_empty {name : String} (h : name ≠ "") : stem name ≠ "" := by
  obtain hself | ⟨before, ext, hbefore, hext, rfl⟩ := stem_cases name
  · rwa [hself]
  · rw [stem_of_dot hbefore hext]
    simpa using hbefore

theorem not_mem_stem {name : String} {c : Char} (h : c ∉ name.toList) : c ∉ (stem name).toList := by
  obtain hself | ⟨before, ext, hbefore, hext, rfl⟩ := stem_cases name
  · rwa [hself]
  · rw [stem_of_dot hbefore hext, String.toList_ofList]
    rw [String.toList_ofList] at h
    exact fun hc => h (List.mem_append_left _ hc)

/-- Two or three dots and an extension without any. -/
def DotsAndExtension (name : String) : Prop :=
  ∃ ext : String, '.' ∉ ext.toList ∧ (name = ".." ++ ext ∨ name = "..." ++ ext)

theorem stem_of_dotsAndExtension {name : String} (h : Ordinary name)
    (hdots : DotsAndExtension name) : stem name = "." ∨ stem name = ".." := by
  obtain ⟨ext, hext, hname | hname⟩ := hdots
  · exact .inl ((stem_eq_iff (by decide) h.ne_dot).mpr ⟨ext, hext, hname⟩)
  · exact .inr ((stem_eq_iff (by decide) h.ne_dots).mpr ⟨ext, hext, hname⟩)

/-- The stem of an ordinary name is ordinary, but for names that begin with dots and have no other
letter before the extension. -/
theorem ordinary_stem_iff {name : String} (h : Ordinary name) :
    Ordinary (stem name) ↔ ¬ DotsAndExtension name := by
  constructor
  · intro hstem hdots
    exact (stem_of_dotsAndExtension h hdots).elim hstem.ne_dot hstem.ne_dots
  · intro hdots
    refine ⟨stem_ne_empty h.ne_empty, fun hstem => ?_, fun hstem => ?_, not_mem_stem h.noSlash⟩
    · obtain ⟨ext, hext, hname⟩ := (stem_eq_iff (by decide) h.ne_dot).mp hstem
      exact hdots ⟨ext, hext, .inl hname⟩
    · obtain ⟨ext, hext, hname⟩ := (stem_eq_iff (by decide) h.ne_dots).mp hstem
      exact hdots ⟨ext, hext, .inr hname⟩

end Stem

end Path

namespace FileTree

variable {t : FileTree}

theorem walk_append (t : FileTree) (trail : Trail) (xs ys : List String) :
    t.walk trail (xs ++ ys) = (t.walk trail xs).bind fun place => t.walk place ys := by
  induction xs generalizing trail with
  | nil => rfl
  | cons s rest ih =>
    simp only [List.cons_append, walk, ih]
    cases t.at? trail with
    | none => rfl
    | some e =>
      cases e with
      | file n => rfl
      | directory entries =>
        dsimp only
        split
        · rfl
        · split
          · rfl
          · split <;> rfl

theorem eq_of_walk_blank {place trail : Trail} (h : t.walk place [""] = .ok trail) :
    place = trail := by
  rw [walk] at h
  split at h
  · cases h
    rfl
  · cases h
  · cases h

/-- Where a path begins: at the root, or with the steps to the working directory. -/
def start (t : FileTree) (path : String) : List String :=
  if Path.isAbsolute path then [] else t.working

theorem walk_of_locate {path : String} {place : Trail} (h : t.locate path = .ok place) :
    path ≠ "" ∧ t.walk [] (t.start path ++ Path.split path) = .ok place := by
  unfold locate at h
  split at h
  · cases h
  · next hne =>
    split at h
    · cases h
    · split at h
      · cases h
      · refine ⟨hne, ?_⟩
        rw [start]
        split at h <;> simp_all

/-- A name without slashes that is joined to a path is followed from where the path leads. -/
theorem walk_of_locate_join {base name : String} {trail place : Trail}
    (hslash : '/' ∉ name.toList) (hbase : t.locate base = .ok trail)
    (h : t.locate (Path.join base name) = .ok place) : t.walk trail [name] = .ok place := by
  obtain ⟨hne, hwalk⟩ := walk_of_locate hbase
  obtain ⟨-, hjoined⟩ := walk_of_locate h
  obtain ⟨front, -, hsplit, hjoin⟩ := Path.split_join hne hslash
  rw [start, Path.isAbsolute_join base hslash, ← start, hjoin, ← List.append_assoc,
    walk_append] at hjoined
  suffices hfront : t.walk [] (t.start base ++ front) = .ok trail by
    rwa [hfront] at hjoined
  rcases hsplit with hs | hs
  · rwa [hs] at hwalk
  · -- A blank step at the end leads nowhere else.
    rw [hs, ← List.append_assoc, walk_append] at hwalk
    cases hplace : t.walk [] (t.start base ++ front) with
    | error e =>
      rw [hplace] at hwalk
      cases hwalk
    | ok place =>
      rw [hplace] at hwalk
      rw [eq_of_walk_blank hwalk]

/-- An ordinary name leads to what the directory calls so. -/
theorem place_of_ordinary {base name : String} {trail place : Trail}
    {entries : List (String × Entry)} (hname : Path.Ordinary name)
    (hbase : t.locate base = .ok trail) (hdir : t.at? trail = some (.directory entries))
    (h : t.locate (Path.join base name) = .ok place) :
    place = (name, entries.lookup name) :: trail := by
  have hwalk := walk_of_locate_join hname.noSlash hbase h
  rw [walk, hdir] at hwalk
  simp only [hname.ne_empty, hname.ne_dot, hname.ne_dots, or_self, if_false, walk] at hwalk
  split at hwalk
  · cases hwalk
  · exact (Except.ok.inj hwalk).symm

/-- One or two dots lead to where the path before them leads, or back up from there. -/
theorem place_of_dots {base dots : String} {trail place : Trail} (hdots : dots = "." ∨ dots = "..")
    (hbase : t.locate base = .ok trail) (h : t.locate (Path.join base dots) = .ok place) :
    place = trail ∨ place = trail.tail := by
  have hslash : '/' ∉ dots.toList := by rcases hdots with rfl | rfl <;> decide
  have hwalk := walk_of_locate_join hslash hbase h
  rw [walk] at hwalk
  split at hwalk
  · rcases hdots with rfl | rfl
    · exact .inl (Except.ok.inj hwalk).symm
    · exact .inr (Except.ok.inj hwalk).symm
  · cases hwalk
  · cases hwalk

end FileTree
end DiscGraphics
