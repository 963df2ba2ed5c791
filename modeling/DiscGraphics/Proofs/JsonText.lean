import DiscGraphics.Json.Reader
import DiscGraphics.Snapshot.Text
import Mathlib.Algebra.Ring.Nat
import Mathlib.Data.List.Basic
import Mathlib.Data.List.Forall2

/-!
Texts that are read back as what they were written from. What a text is read as does not depend on
what stands around it, so arrays and objects follow from their parts.
-/
namespace DiscGraphics.Json

section Quoted

/-- A character that stands for itself between quotes. -/
def Plain (c : Char) : Prop := c ≠ '"' ∧ c ≠ '\\' ∧ 32 ≤ c.toNat

/-- How a character is written between quotes: as itself, by a letter or by its number. -/
inductive Escapes (c : Char) : List Char → Prop where
  | plain : Plain c → Escapes c [c]
  | letter {e : Char} : e ≠ 'u' → escaped? e = some c → Escapes c ['\\', e]
  | number {h₁ h₂ h₃ h₄ : Char} : c.toNat < 32 → hexWord? h₁ h₂ h₃ h₄ = some c.toNat →
      Escapes c ['\\', 'u', h₁, h₂, h₃, h₄]

theorem hexDigit?_digitChar : ∀ d < 16, hexDigit? (Nat.digitChar d) = some d := by decide

theorem escapes_escapeChar (c : Char) : Escapes c (escapeChar c) := by
  unfold escapeChar
  split_ifs with hquote hslash hback htab hline hfeed hreturn hcontrol
  · exact .letter (by decide) (by subst hquote; rfl)
  · exact .letter (by decide) (by subst hslash; rfl)
  · exact .letter (by decide) (by subst hback; rfl)
  · exact .letter (by decide) (by subst htab; rfl)
  · exact .letter (by decide) (by subst hline; rfl)
  · exact .letter (by decide) (by subst hfeed; rfl)
  · exact .letter (by decide) (by subst hreturn; rfl)
  · refine .number hcontrol ?_
    have hzero : hexDigit? '0' = some 0 := rfl
    have hhigh := hexDigit?_digitChar (c.toNat / 16) (by omega)
    have hlow := hexDigit?_digitChar (c.toNat % 16) (by omega)
    simp [hexWord?, hzero, hhigh, hlow, Nat.div_add_mod']
  · exact .plain ⟨hquote, hslash, Nat.not_lt.mp hcontrol⟩

example : escapeChar '\x1f' = ['\\', 'u', '0', '0', '1', 'f'] := rfl

theorem plain_of_hexDigit? {c : Char} {d : Nat} (h : hexDigit? c = some d) : Plain c := by
  have hrange : 48 ≤ c.toNat ∧ c.toNat ≠ 92 := by
    unfold hexDigit? at h
    split_ifs at h with hdecimal hlower hupper
    · have hlow : 48 ≤ c.toNat := hdecimal.1
      have hhigh : c.toNat ≤ 57 := hdecimal.2
      omega
    · have hlow : 97 ≤ c.toNat := hlower.1
      omega
    · have hlow : 65 ≤ c.toNat := hupper.1
      have hhigh : c.toNat ≤ 70 := hupper.2
      omega
  refine ⟨?_, ?_, by omega⟩
  · rintro rfl
    exact absurd hrange.1 (by decide)
  · rintro rfl
    exact hrange.2 rfl

theorem plain_of_hexWord? {a b c d : Char} {n : Nat} (h : hexWord? a b c d = some n) :
    Plain a ∧ Plain b ∧ Plain c ∧ Plain d := by
  simp only [hexWord?, Option.bind_eq_bind, Option.bind_eq_some_iff] at h
  obtain ⟨_, ha, _, hb, _, hc, _, hd, -⟩ := h
  exact ⟨plain_of_hexDigit? ha, plain_of_hexDigit? hb, plain_of_hexDigit? hc,
    plain_of_hexDigit? hd⟩

theorem quoted_plain {c : Char} (h : Plain c) (body rest : List Char) :
    quoted body (c :: rest) = quoted (c :: body) rest := by
  obtain ⟨hquote, hslash, hcontrol⟩ := h
  rw [quoted, if_neg (Nat.not_lt.mpr hcontrol)]
  · exact hquote
  · exact fun _ _ hc _ => hslash hc

/-- No way of writing a character ends the quoted text. -/
theorem quoted_escapes {c : Char} {e : List Char} (h : Escapes c e) (body rest : List Char) :
    quoted body (e ++ rest) = quoted (e.reverse ++ body) rest := by
  cases h with
  | plain hc => exact quoted_plain hc body rest
  | letter => rfl
  | number _ hword =>
    obtain ⟨h₁, h₂, h₃, h₄⟩ := plain_of_hexWord? hword
    simp only [List.cons_append, List.nil_append, quoted, quoted_plain, h₁, h₂, h₃, h₄]
    rfl

/-- Each way of writing a character is read as that character. -/
theorem unescape_escapes {c : Char} {e : List Char} (h : Escapes c e) (out rest : List Char) :
    unescape out true none (e ++ rest) = unescape (c :: out) true none rest := by
  cases h with
  | plain hc =>
    have hslash : c ≠ '\\' := hc.2.1
    rw [List.singleton_append, unescape]
    · rfl
    · exact fun _ _ _ _ _ hc _ => hslash hc
    · exact fun _ _ hc _ => hslash hc
  | letter hletter he =>
    rw [List.cons_append, List.singleton_append, unescape]
    · simp only [he]
      rfl
    · exact fun _ _ _ _ _ hu _ => hletter hu
  | number hcontrol hword =>
    simp only [List.cons_append, List.nil_append, unescape, hword]
    rw [if_neg (by omega), if_neg (by omega), Char.ofNat_toNat]
    rfl

theorem quoted_flatMap (cs body rest : List Char) :
    quoted body (cs.flatMap escapeChar ++ '"' :: rest) =
      some (body.reverse ++ cs.flatMap escapeChar, rest) := by
  induction cs generalizing body with
  | nil => simp [quoted]
  | cons c cs ih =>
    rw [List.flatMap_cons, List.append_assoc, quoted_escapes (escapes_escapeChar c), ih]
    simp

theorem unescape_flatMap (cs out : List Char) :
    unescape out true none (cs.flatMap escapeChar) =
      some (some (String.ofList (out.reverse ++ cs))) := by
  induction cs generalizing out with
  | nil => simp [unescape]
  | cons c cs ih =>
    rw [List.flatMap_cons, unescape_escapes (escapes_escapeChar c), ih]
    simp

end Quoted

section Tokens

/-- Whether no number and no word goes on with a text. -/
def Ends (cs : List Char) : Prop := ∀ c ∈ cs.head?, inNumber c = false ∧ c.isLower = false

/-- Whether a text is cut into some tokens wherever it stands. -/
def Spells (cs : List Char) (ts : List Token) : Prop :=
  ∀ found rest, Ends rest → tokens found (cs ++ rest) = tokens (ts.reverse ++ found) rest

theorem ends_mark {c : Char} {t : Token} (h : punctuation? c = some t) (cs : List Char) :
    Ends (c :: cs) := by
  intro d hd
  cases hd
  unfold punctuation? at h
  split at h <;> first | decide | cases h

theorem tokens_mark {c : Char} {t : Token} (h : punctuation? c = some t) (found : List Token)
    (rest : List Char) : tokens found (c :: rest) = tokens (t :: found) rest := by
  have hblank : isBlank c = false := by
    unfold punctuation? at h
    split at h <;> first | decide | cases h
  rw [tokens]
  simp [hblank, h]

theorem spells_nil : Spells [] [] := fun _ _ _ => rfl

/-- Punctuation keeps the texts on its two sides apart. -/
theorem Spells.mark {cs ds : List Char} {ts us : List Token} (hcs : Spells cs ts) {c : Char}
    {t : Token} (h : punctuation? c = some t) (hds : Spells ds us) :
    Spells (cs ++ c :: ds) (ts ++ t :: us) := by
  intro found rest hrest
  rw [List.append_assoc, List.cons_append, hcs _ _ (ends_mark h _), tokens_mark h, hds _ _ hrest]
  simp

theorem tokens_quoted {rest rest' body : List Char} {t : Option String}
    (hbody : quoted [] rest = some (body, rest')) (ht : unescape? body = some t)
    (found : List Token) :
    tokens found ('"' :: rest) = tokens (.atom (.text t) :: found) rest' := by
  have hblank : isBlank '"' = false := rfl
  have hmark : punctuation? '"' = none := rfl
  rw [tokens]
  simp only [hblank, hmark, Bool.false_eq_true, if_false, if_true]
  split
  · next h => cases h.symm.trans hbody
  · next h =>
    cases h.symm.trans hbody
    simp only [ht]

theorem spells_quote (s : String) : Spells (quote s).toList [.atom (.text (some s))] := by
  intro found rest _
  have hbody := quoted_flatMap s.toList [] rest
  have hread : unescape? (s.toList.flatMap escapeChar) = some (some s) := by
    rw [unescape?, unescape_flatMap]
    simp
  have htext : (quote s).toList ++ rest = '"' :: (s.toList.flatMap escapeChar ++ '"' :: rest) := by
    simp [quote]
  rw [htext, tokens_quoted hbody hread]
  rfl

/-- A run of characters ends where the first one stands that does not belong to it. -/
theorem span_append {p : Char → Bool} {cs rest : List Char} (hcs : ∀ c ∈ cs, p c = true)
    (hrest : ∀ c ∈ rest.head?, p c = false) :
    (cs ++ rest).takeWhile p = cs ∧ (cs ++ rest).dropWhile p = rest := by
  rw [List.takeWhile_append_of_pos hcs, List.dropWhile_append_of_pos hcs]
  cases rest with
  | nil => simp
  | cons c rest => simp [hrest c rfl]

theorem starts_of_isDigit {c : Char} (h : c.isDigit = true) :
    isBlank c = false ∧ punctuation? c = none ∧ c ≠ '"' ∧ inNumber c = true := by
  have hne (d : Char) (hd : d.isDigit = false) : c ≠ d := by
    rintro rfl
    cases h.symm.trans hd
  refine ⟨?_, ?_, hne '"' rfl, by simp [inNumber, h]⟩
  · simp [isBlank, hne ' ' rfl, hne '\t' rfl, hne '\n' rfl, hne '\r' rfl]
  · unfold punctuation?
    split <;> first | rfl | exact absurd h (by decide)

/-- A number other than zero begins with another digit. -/
theorem head_toDigits {n : Nat} (h : n ≠ 0) :
    ∃ c rest, Nat.toDigits 10 n = c :: rest ∧ c ≠ '0' := by
  induction n using Nat.strongRecOn with
  | ind n ih =>
    rw [Nat.toDigits_eq_if (by decide)]
    split
    · next hlt =>
      have hdigit : ∀ d < 10, d ≠ 0 → d.digitChar ≠ '0' := by decide
      exact ⟨n.digitChar, [], rfl, hdigit n hlt h⟩
    · next hge =>
      obtain ⟨c, rest, hdigits, hc⟩ := ih (n / 10) (by omega) (by omega)
      exact ⟨c, rest ++ [(n % 10).digitChar], by rw [hdigits]; rfl, hc⟩

theorem isWhole_toDigits (n : Nat) : isWhole (Nat.toDigits 10 n) = true := by
  by_cases hn : n = 0
  · subst hn
    rfl
  · obtain ⟨c, rest, hdigits, hc⟩ := head_toDigits hn
    have hall : ∀ d ∈ c :: rest, d.isDigit = true := fun d hd =>
      Nat.isDigit_of_mem_toDigits (by decide) (by decide) (hdigits ▸ hd)
    obtain ⟨hfirst, hlater⟩ := List.forall_mem_cons.mp hall
    rw [hdigits, isWhole]
    · simp [hc, hfirst, List.all_eq_true.mpr hlater]
    · exact fun h _ => hc h

theorem number?_toDigits {n : Nat} (h : n < 10 ^ 20) :
    number? (Nat.toDigits 10 n) = some (.natural n) := by
  have hlength := (Nat.length_toDigits_le_iff (by decide) (by decide)).mpr h
  unfold number?
  rw [if_pos (isWhole_toDigits n), if_pos hlength,
    Nat.ofDigitChars_toDigits (by decide) (by decide)]

theorem spells_natural {n : Nat} (h : n < 10 ^ 20) :
    Spells n.repr.toList [.atom (.natural n)] := by
  intro found rest hrest
  have hdigit : ∀ c ∈ Nat.toDigits 10 n, c.isDigit = true := fun c hc =>
    Nat.isDigit_of_mem_toDigits (by decide) (by decide) hc
  have hnumber := number?_toDigits h
  obtain ⟨c, ds, hdigits⟩ := List.exists_cons_of_ne_nil (Nat.toDigits_ne_nil (n := n) (b := 10))
  rw [hdigits] at hdigit hnumber
  obtain ⟨hc, hds⟩ := List.forall_mem_cons.mp hdigit
  obtain ⟨hblank, hmark, hquote, hin⟩ := starts_of_isDigit hc
  obtain ⟨htake, hdrop⟩ := span_append (p := inNumber)
    (fun d hd => (starts_of_isDigit (hds d hd)).2.2.2) fun d hd => (hrest d hd).1
  rw [Nat.toList_repr, hdigits, List.cons_append, tokens]
  simp only [hblank, hmark, hquote, hin, htake, hdrop, hnumber, if_true, if_false]
  rfl

theorem spells_word {c : Char} {cs : List Char} {v : Json} (hblank : isBlank c = false)
    (hmark : punctuation? c = none) (hquote : c ≠ '"') (hin : inNumber c = false)
    (hcs : cs.all Char.isLower = true) (hv : word? (c :: cs) = some v) :
    Spells (c :: cs) [.atom v] := by
  intro found rest hrest
  obtain ⟨htake, hdrop⟩ := span_append (List.all_eq_true.mp hcs) fun d hd => (hrest d hd).2
  rw [List.cons_append, tokens]
  simp only [hblank, hmark, hquote, hin, htake, hdrop, hv, if_false]
  rfl

theorem spells_bool (b : Bool) :
    Spells (if b then "true" else "false").toList [.atom (.bool b)] := by
  cases b with
  | true => exact spells_word rfl rfl (by decide) rfl rfl rfl
  | false => exact spells_word rfl rfl (by decide) rfl rfl rfl

/-- Texts with commas between them are cut one by one. -/
theorem spells_intercalate {texts : List (List Char)} {tss : List (List Token)}
    (h : List.Forall₂ Spells texts tss) :
    Spells ([','].intercalate texts) ([Token.comma].intercalate tss) := by
  induction h with
  | nil => exact spells_nil
  | cons hfirst hrest ih =>
    cases hrest with
    | nil => simpa using hfirst
    | cons hsecond hlater => simpa using hfirst.mark rfl ih

/-- Marks around such texts do not change how they are cut. -/
theorem spells_enclosed (left right : Char) {t u : Token} (ht : punctuation? left = some t)
    (hu : punctuation? right = some u) {texts : List (List Char)} {tss : List (List Token)}
    (h : List.Forall₂ Spells texts tss) :
    Spells (left :: ([','].intercalate texts ++ [right]))
      (t :: ([Token.comma].intercalate tss ++ [u])) :=
  spells_nil.mark ht ((spells_intercalate h).mark hu spells_nil)

end Tokens

namespace Reader

theorem run_append (r : Reader) (ts us : List Token) :
    r.run (ts ++ us) = (r.run ts).bind (·.run us) := by
  induction ts generalizing r with
  | nil => rfl
  | cons t ts ih =>
    simp only [List.cons_append, run]
    cases r.step t with
    | none => rfl
    | some r' => exact ih r'

/-- A reader that takes every step that another one takes can stand in for it. -/
theorem run_of_step {r r' last : Reader}
    (h : ∀ t next, r.step t = some next → r'.step t = some next) {ts : List Token} (hts : ts ≠ [])
    (hrun : r.run ts = some last) : r'.run ts = some last := by
  cases ts with
  | nil => exact absurd rfl hts
  | cons t ts =>
    rw [run] at hrun ⊢
    cases hstep : r.step t with
    | none =>
      rw [hstep] at hrun
      cases hrun
    | some next => rwa [h t next hstep, ← hstep]

theorem step_arrayStart {outer : List Open} {t : Token} {next : Reader}
    (h : (value (.array [] :: outer)).step t = some next) :
    (arrayStart outer).step t = some next := by
  cases t with
  | closeArray => cases h
  | openArray | openObject | closeObject | comma | colon | atom => exact h

theorem step_objectStart {outer : List Open} {t : Token} {next : Reader}
    (h : (key [] outer).step t = some next) : (objectStart outer).step t = some next := by
  cases t with
  | atom v =>
    cases v with
    | text => exact h
    | null | bool | natural | otherNumber | array | object => cases h
  | openArray | closeArray | openObject | closeObject | comma | colon => cases h

/-- Items with commas between them, the last one in front of `close`. `awaiting` is the reader that
is ready for one more item, with those that it has, latest first; the item brings it to a place from
where a comma leads on and `close` to the end. -/
theorem run_items {β : Type} (awaiting closed : List β → Reader) (close : Token)
    {Item : List Token → β → Prop}
    (hitem : ∀ {ts : List Token} {b : β}, Item ts b → ∀ before, ∃ r,
      (awaiting before).run ts = some r ∧ r.step .comma = some (awaiting (b :: before)) ∧
      r.step close = some (closed (b :: before)))
    {tss : List (List Token)} {bs : List β} (h : List.Forall₂ Item tss bs) (hne : bs ≠ [])
    (before : List β) :
    (awaiting before).run ([Token.comma].intercalate tss ++ [close]) =
      some (closed (bs.reverse ++ before)) := by
  induction h generalizing before with
  | nil => exact absurd rfl hne
  | @cons ts b tss bs hfirst hrest ih =>
    obtain ⟨r, hrun, hcomma, hclose⟩ := hitem hfirst before
    cases hrest with
    | nil => simp [run_append, hrun, run, hclose]
    | cons hsecond hlater =>
      rw [List.intercalate_cons_cons, List.append_assoc, List.append_assoc, run_append, hrun,
        Option.bind_some, List.singleton_append, run, hcomma]
      simpa using ih (List.cons_ne_nil _ _) (b :: before)

end Reader

/-- Whether some tokens are read as a value wherever one may stand. -/
def Yields (ts : List Token) (v : Json) : Prop :=
  ∀ outer, (Reader.value outer).run ts = some (.complete v outer)

/-- Whether some tokens are read as a key with its value. -/
def YieldsMember (ts : List Token) (m : Option String × Json) : Prop :=
  ∀ before outer,
    (Reader.key before outer).run ts = some (.complete m.2 (.object before m.1 :: outer))

/-- Whether a text is read as a value wherever one may stand. -/
def Reads (text : String) (v : Json) : Prop := ∃ ts, Spells text.toList ts ∧ Yields ts v

theorem parse?_of_reads {text : String} {v : Json} (h : Reads text v) : parse? text = some v := by
  obtain ⟨ts, hspells, hyields⟩ := h
  have hstart : Reader.start.run ts = some (.complete v []) := hyields []
  have htokens := hspells [] [] nofun
  rw [List.append_nil, tokens, List.append_nil, List.reverse_reverse] at htokens
  rw [parse?, htokens]
  simp only [hstart]

section Reads

variable {texts : List String} {vs : List Json}

theorem reads_of_spells {text : String} {v : Json} (h : Spells text.toList [.atom v]) :
    Reads text v := ⟨_, h, fun _ => rfl⟩

theorem reads_natural {n : Nat} (h : n < 10 ^ 20) : Reads n.repr (.natural n) :=
  reads_of_spells (spells_natural h)

/-- The tokens of several texts, one list for each. -/
theorem exists_tokens {β : Type} {Item : List Token → β → Prop} {texts : List String} {bs : List β}
    (h : List.Forall₂ (fun text b => ∃ ts, Spells text.toList ts ∧ Item ts b) texts bs) :
    ∃ tss, List.Forall₂ Spells (texts.map String.toList) tss ∧ List.Forall₂ Item tss bs := by
  induction h with
  | nil => exact ⟨[], .nil, .nil⟩
  | cons hfirst hrest ih =>
    obtain ⟨ts, hspells, hitem⟩ := hfirst
    obtain ⟨tss, hall, hitems⟩ := ih
    exact ⟨ts :: tss, .cons hspells hall, .cons hitem hitems⟩

/-- Texts of values with commas between them and brackets around them are read as an array. -/
theorem reads_array (h : List.Forall₂ Reads texts vs) :
    Reads ("[" ++ ",".intercalate texts ++ "]") (.array vs) := by
  obtain ⟨tss, hspells, hyields⟩ := exists_tokens h
  have htext := spells_enclosed '[' ']' rfl rfl hspells
  refine ⟨_, by simpa using htext, fun outer => ?_⟩
  cases vs with
  | nil =>
    cases hyields
    rfl
  | cons v vs =>
    have hitems := Reader.run_items (fun before => .value (.array before :: outer))
      (fun before => .complete (.array before.reverse) outer) .closeArray
      (fun hts before => ⟨_, hts (.array before :: outer), rfl, rfl⟩) hyields
      (List.cons_ne_nil v vs) []
    rw [List.append_nil, List.reverse_reverse] at hitems
    exact Reader.run_of_step (fun _ _ => Reader.step_arrayStart) (by simp) hitems

theorem reads_numberList {ns : List Nat} (h : ∀ n ∈ ns, n < 10 ^ 20) :
    Reads (numberList ns) (.array (ns.map .natural)) := by
  refine reads_array ?_
  rw [List.forall₂_map_left_iff, List.forall₂_map_right_iff, List.forall₂_same]
  exact fun n hn => reads_natural (h n hn)

/-- A key, a colon and the text of a value are a member of an object. -/
theorem exists_member {text : String} {v : Json} (h : Reads text v) (k : String) :
    ∃ ts, Spells (quote k ++ ":" ++ text).toList ts ∧ YieldsMember ts (some k, v) := by
  obtain ⟨ts, hspells, hyields⟩ := h
  have htext : Spells ((quote k).toList ++ ':' :: text.toList) _ :=
    (spells_quote k).mark rfl hspells
  refine ⟨.atom (.text (some k)) :: .colon :: ts, by simpa using htext, fun before outer => ?_⟩
  exact hyields (.object before (some k) :: outer)

/-- Texts of values with keys before them and braces around all are read as an object. -/
theorem reads_object (keys : List String) (h : List.Forall₂ Reads texts vs) :
    Reads
      ("\x7b" ++ ",".intercalate (keys.zipWith (fun k t => quote k ++ ":" ++ t) texts) ++ "\x7d")
      (.object (keys.zipWith (fun k v => (some k, v)) vs)) := by
  have hmembers : List.Forall₂ (fun text m => ∃ ts, Spells text.toList ts ∧ YieldsMember ts m)
      (keys.zipWith (fun k t => quote k ++ ":" ++ t) texts)
      (keys.zipWith (fun k v => (some k, v)) vs) := by
    induction h generalizing keys with
    | nil => simp
    | cons hfirst _ ih =>
      cases keys with
      | nil => simp
      | cons k keys => exact .cons (exists_member hfirst k) (ih keys)
  generalize keys.zipWith (fun k t => quote k ++ ":" ++ t) texts = texts,
    keys.zipWith (fun k v => (some k, v)) vs = members at hmembers
  obtain ⟨tss, hspells, hyields⟩ := exists_tokens hmembers
  have htext := spells_enclosed '\x7b' '\x7d' rfl rfl hspells
  refine ⟨_, by simpa using htext, fun outer => ?_⟩
  cases members with
  | nil =>
    cases hyields
    rfl
  | cons m members =>
    have hitems := Reader.run_items (fun before => .key before outer)
      (fun before => .complete (.object before.reverse) outer) .closeObject
      (fun hts before => ⟨_, hts before outer, rfl, rfl⟩) hyields (List.cons_ne_nil m members) []
    rw [List.append_nil, List.reverse_reverse] at hitems
    exact Reader.run_of_step (fun _ _ => Reader.step_objectStart) (by simp) hitems

end Reads

end DiscGraphics.Json
