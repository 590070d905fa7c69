/-
  PageServer.Proofs.Appended — declaration files one after the other.

  Two files whose literals are well placed are read one after the other as each is read alone: the
  declarations of both, in either order, or an error for the first tag name of the second that the
  first has (`parse_append`). Semicolons after a declaration are passed over, and so are semicolons
  before one, but not with blank text between them: where both meet, the second file's are read as
  part of what follows.

  What makes literals ill placed is that they are set aside under numbers, which another file
  shifts: `lookalike_is_taken_for_a_literal` shows text that is taken for another file's literal.
-/

import Mathlib.Data.List.Nodup
import Mathlib.Data.List.Perm.Basic
import PageServer.Proofs.InPlace

namespace PageServer

/-! ## Where files meet -/

namespace Lexeme

variable {ls a b y : List Lexeme}

/-- What is not blank. -/
def solid (ls : List Lexeme) : List Lexeme := ls.filter (!isBlank ·)

def EndsInSemicolon (ls : List Lexeme) : Prop := (solid ls).getLast? = some (char ';')

def BeginsWithSemicolon (ls : List Lexeme) : Prop := (solid ls).head? = some (char ';')

def AllBlank (ls : List Lexeme) : Prop := ∀ l ∈ ls, isBlank l = true

theorem AllBlank.append (ha : AllBlank a) (hb : AllBlank b) : AllBlank (a ++ b) := by
  intro l hl
  rcases List.mem_append.mp hl with hl | hl
  · exact ha l hl
  · exact hb l hl

theorem trim_append (ha : AllBlank a) : trim (a ++ y) = trim y := by
  rw [trim, trim, List.dropWhile_append_of_pos ha]

theorem trim_eq_nil (h : trim ls = []) : AllBlank ls := by
  have hdrop : AllBlank (ls.dropWhile isBlank) := fun l hl => List.rdropWhile_eq_nil_iff.mp h l hl
  intro l hl
  rw [← List.takeWhile_append_dropWhile (p := isBlank) (l := ls)] at hl
  rcases List.mem_append.mp hl with hl | hl
  · exact List.mem_takeWhile_imp hl
  · exact hdrop l hl

theorem trim_of_allBlank (h : AllBlank ls) : trim ls = [] := by
  rw [trim, List.dropWhile_eq_nil_iff.mpr h]
  rfl

theorem trim_concat {l : Lexeme} (hl : isBlank l = true) : trim (ls ++ [l]) = trim ls := by
  rw [trim, trim, List.dropWhile_append]
  split
  · rename_i hempty
    rw [List.isEmpty_iff.mp hempty, List.dropWhile_cons_of_pos hl]
    rfl
  · exact List.rdropWhile_concat_pos _ _ _ hl

/-- What follows stray semicolons. -/
def strip (ls : List Lexeme) : List Lexeme := (ls.dropWhile isBlank).dropWhile (· == char ';')

theorem trim_dropWhile (ls : List Lexeme) :
    trim ((ls.rdropWhile isBlank).dropWhile (· == char ';')) = trim (ls.dropWhile (· == char ';')) := by
  induction ls using List.reverseRecOn with
  | nil => rfl
  | append_singleton ls l ih =>
    by_cases hl : isBlank l = true
    · rw [List.rdropWhile_concat_pos _ _ _ hl, ih, List.dropWhile_append]
      split
      · rename_i hempty
        have hsemi : (l == char ';') = false := by
          refine beq_eq_false_iff_ne.mpr fun heq => ?_
          rw [heq] at hl
          cases hl
        rw [List.isEmpty_iff.mp hempty, List.dropWhile_cons_of_neg (by rw [hsemi]; decide)]
        exact (trim_of_allBlank (by simpa [AllBlank] using hl)).symm
      · exact (trim_concat hl).symm
    · rw [List.rdropWhile_concat_neg _ _ _ hl]

theorem trimSemicolons_eq (ls : List Lexeme) : trimSemicolons ls = trim (strip ls) := trim_dropWhile _

theorem solid_head (ls : List Lexeme) : (solid ls).head? = (ls.dropWhile isBlank).head? := by
  induction ls with
  | nil => rfl
  | cons l ls ih =>
    rw [solid] at ih
    by_cases hl : isBlank l = true <;> simp [solid, hl, ih]

theorem solid_append (a b : List Lexeme) : solid (a ++ b) = solid a ++ solid b := List.filter_append _ _

theorem solid_of_allBlank (h : AllBlank ls) : solid ls = [] := by
  simpa [solid, AllBlank] using h

theorem trim_dropBlank (ls : List Lexeme) : trim (ls.dropWhile isBlank) = trim ls := by
  have hsplit := trim_append (a := ls.takeWhile isBlank) (y := ls.dropWhile isBlank) fun l hl => List.mem_takeWhile_imp hl
  rwa [List.takeWhile_append_dropWhile, eq_comm] at hsplit

theorem dropWhile_semicolons (h : ls.head? ≠ some (char ';')) : ls.dropWhile (· == char ';') = ls := by
  cases ls with
  | nil => rfl
  | cons l ls => exact List.dropWhile_cons_of_neg (by simpa using h)

/-- A text that is nothing but stray semicolons ends in one, if it is not blank. -/
theorem endsInSemicolon_of_strip (h : AllBlank (strip ls)) (hne : ls.dropWhile isBlank ≠ []) :
    EndsInSemicolon ls := by
  have hsolid : solid ls = solid (ls.dropWhile isBlank) := by
    conv_lhs => rw [← List.takeWhile_append_dropWhile (p := isBlank) (l := ls)]
    rw [solid_append, solid_of_allBlank fun l hl => List.mem_takeWhile_imp hl, List.nil_append]
  have hsemi : solid (ls.dropWhile isBlank) = (ls.dropWhile isBlank).takeWhile (· == char ';') := by
    conv_lhs => rw [← List.takeWhile_append_dropWhile (p := (· == char ';')) (l := ls.dropWhile isBlank)]
    change solid (_ ++ strip ls) = _
    rw [solid_append, show solid (strip ls) = [] from solid_of_allBlank h, List.append_nil]
    refine List.filter_eq_self.mpr fun l hl => ?_
    have hl' : l = char ';' := by simpa using List.mem_takeWhile_imp hl
    rw [hl']
    rfl
  have hhead : ∃ l, (ls.dropWhile isBlank).head? = some l ∧ isBlank l = false := by
    obtain ⟨l, rest, hrest⟩ := List.exists_cons_of_ne_nil hne
    have hl := List.head?_dropWhile_not isBlank ls
    rw [hrest] at hl ⊢
    exact ⟨l, rfl, by simpa using hl⟩
  obtain ⟨l, hl, hblank⟩ := hhead
  rw [EndsInSemicolon, hsolid]
  rw [← solid_head, hsolid, hsemi] at hl
  rw [hsemi]
  generalize htake : (ls.dropWhile isBlank).takeWhile (· == char ';') = semis at hl
  have hall : ∀ l ∈ semis, l = char ';' := by
    intro l hl
    rw [← htake] at hl
    simpa using List.mem_takeWhile_imp hl
  have hsemis : semis ≠ [] := by
    rintro rfl
    cases hl
  rw [List.getLast?_eq_some_getLast hsemis, hall _ (List.getLast_mem hsemis)]

/-- Stray semicolons before a file's end do not show in what follows, unless more follow. -/
theorem trimSemicolons_append (ha : trimSemicolons a = []) (hy : EndsInSemicolon a → ¬BeginsWithSemicolon y) :
    trimSemicolons (a ++ y) = trimSemicolons y := by
  rw [trimSemicolons_eq] at ha
  rw [trimSemicolons_eq, trimSemicolons_eq]
  have hblank : AllBlank (strip a) := trim_eq_nil ha
  by_cases hne : a.dropWhile isBlank = []
  · rw [strip, strip, List.dropWhile_append_of_pos fun l hl => List.dropWhile_eq_nil_iff.mp hne l hl]
  have hhead := hy (endsInSemicolon_of_strip hblank hne)
  rw [BeginsWithSemicolon, solid_head] at hhead
  have hay : strip (a ++ y) = (strip a ++ y).dropWhile (· == char ';') := by
    rw [strip, List.dropWhile_append, if_neg (by simpa using hne), strip]
    conv_lhs => rw [← List.takeWhile_append_dropWhile (p := (· == char ';')) (l := a.dropWhile isBlank), List.append_assoc]
    exact List.dropWhile_append_of_pos fun l hl => List.mem_takeWhile_imp (p := (· == char ';')) hl
  have hfront : (strip a ++ y).head? ≠ some (char ';') := by
    intro hfront
    rcases hstrip : strip a with _ | ⟨b, w⟩
    · rw [hstrip, List.nil_append] at hfront
      obtain ⟨rest, rfl⟩ := List.head?_eq_some_iff.mp hfront
      exact hhead rfl
    · rw [hstrip] at hfront hblank
      have hb : b = char ';' := by simpa using hfront
      have hb' := hblank b List.mem_cons_self
      rw [hb] at hb'
      cases hb'
  rw [hay, dropWhile_semicolons hfront, trim_append hblank, strip, dropWhile_semicolons hhead, trim_dropBlank]

theorem EndsInSemicolon.extended (h : EndsInSemicolon b) (hsuffix : b <:+ a) : EndsInSemicolon a := by
  obtain ⟨front, rfl⟩ := hsuffix
  rw [EndsInSemicolon] at h ⊢
  rw [solid_append, List.getLast?_append, h]
  rfl

theorem BeginsWithSemicolon.extended (h : BeginsWithSemicolon b) (hfront : b <+: a) : BeginsWithSemicolon a := by
  obtain ⟨rest, rfl⟩ := hfront
  rw [BeginsWithSemicolon] at h ⊢
  rw [solid_append, List.head?_append, h]
  rfl

theorem cut?_append {sep : Char} {x y : List Lexeme} (h : cut? sep a = some (x, y)) (b : List Lexeme) :
    cut? sep (a ++ b) = some (x, y ++ b) := by
  obtain ⟨rfl, hx⟩ := eq_of_cut? h
  rw [List.append_assoc, List.cons_append]
  exact cut?_eq_some hx (y ++ b)

theorem cut?_append_of_none {sep : Char} (h : cut? sep a = none) (b : List Lexeme) :
    cut? sep (a ++ b) = (cut? sep b).map fun p => (a ++ p.1, p.2) := by
  have hall : ∀ l ∈ a, (l != char sep) = true := by
    unfold cut? at h
    split at h
    · rename_i hdrop
      exact List.dropWhile_eq_nil_iff.mp hdrop
    · cases h
  rw [cut?, cut?, List.dropWhile_append_of_pos hall, List.takeWhile_append_of_pos hall]
  split <;> rfl

/-- Rows one after the other are cut up as each is alone, unless stray semicolons meet. -/
theorem blocks_append {as bs : List (List Lexeme × List Lexeme)} (ha : blocks a = some as) (hb : blocks b = some bs)
    (hapart : EndsInSemicolon a → ¬BeginsWithSemicolon b) : blocks (a ++ b) = some (as ++ bs) := by
  induction hn : a.length using Nat.strong_induction_on generalizing a as with
  | _ n ih =>
    subst hn
    rcases hcut : cut? '\x7b' a with _ | ⟨header, after⟩
    · rw [blocks_end hcut] at ha
      by_cases hend : (trimSemicolons a).isEmpty = true
      · rw [if_pos hend] at ha
        cases ha
        have hmerge : ∀ y, y <+: b → trimSemicolons (a ++ y) = trimSemicolons y := fun y hy =>
          trimSemicolons_append (List.isEmpty_iff.mp hend) fun h h' => hapart h (h'.extended hy)
        rcases hcutb : cut? '\x7b' b with _ | ⟨header, after⟩
        · rw [blocks_end (by rw [cut?_append_of_none hcut, hcutb]; rfl), hmerge b List.prefix_rfl, ← blocks_end hcutb, hb]
          rfl
        · have hcutab : cut? '\x7b' (a ++ b) = some (a ++ header, after) := by
            rw [cut?_append_of_none hcut, hcutb]
            rfl
          have hheader : header <+: b := ⟨_, (eq_of_cut? hcutb).1.symm⟩
          rcases hcutend : cut? '\x7d' after with _ | ⟨body, rest⟩
          · rw [blocks_open hcutb hcutend] at hb
            cases hb
          · rw [blocks_cons hcutb hcutend] at hb
            rw [blocks_cons hcutab hcutend, hmerge header hheader, hb]
            rfl
      · rw [if_neg hend] at ha
        cases ha
    · rcases hcutend : cut? '\x7d' after with _ | ⟨body, rest⟩
      · rw [blocks_open hcut hcutend] at ha
        cases ha
      · rw [blocks_cons hcut hcutend] at ha
        obtain ⟨as', has', rfl⟩ := Option.map_eq_some_iff.mp ha
        have hlt : rest.length < a.length := (cut?_length hcutend).trans (cut?_length hcut)
        have hsuffix : rest <:+ a := by
          rw [(eq_of_cut? hcut).1, (eq_of_cut? hcutend).1]
          exact ⟨header ++ char '\x7b' :: body ++ [char '\x7d'], by simp⟩
        rw [blocks_cons (cut?_append hcut b) (cut?_append hcutend b),
          ih _ hlt has' (fun h => hapart (h.extended hsuffix)) rfl]
        rfl

theorem blocks_of_blank (ha : AllBlank a) {bs : List (List Lexeme × List Lexeme)} (hb : blocks b = some bs) :
    blocks (a ++ b) = some bs := by
  have hcut : cut? '\x7b' a = none := by
    rw [cut?, List.dropWhile_eq_nil_iff.mpr fun l hl => ?_]
    refine bne_iff_ne.mpr fun heq => ?_
    have hl' := ha l hl
    rw [heq] at hl'
    cases hl'
  have hnone : blocks a = some [] := by
    rw [blocks_end hcut, if_pos (List.isEmpty_iff.mpr ?_)]
    rw [trimSemicolons, trim_of_allBlank ha]
    rfl
  refine blocks_append hnone hb fun hends => ?_
  rw [EndsInSemicolon, solid_of_allBlank ha] at hends
  cases hends

end Lexeme

/-! ## Collecting -/

namespace Declarations

open Lexeme

variable {ds ds' before : Declarations} {decls : List Declaration}

theorem get?_of_foldlM_add (h : decls.foldlM add before = .ok ds) (name : String) :
    Assoc.get? name ds = (Assoc.get? name before).or (decls.find? (·.name == name)) := by
  induction decls generalizing before with
  | nil =>
    cases h
    simp
  | cons d decls ih =>
    rw [List.foldlM_cons] at h
    by_cases htaken : Assoc.contains d.name before = true
    · rw [add, if_pos htaken] at h
      cases h
    · rw [add, if_neg htaken] at h
      rw [ih h]
      by_cases hname : name = d.name
      · subst hname
        have hnone : Assoc.get? d.name before = none := by simpa [Assoc.contains] using htaken
        simp [hnone]
      · rw [Assoc.get?_put_of_ne hname, List.find?_cons_of_neg (by simpa using Ne.symm hname)]

theorem sorted_of_foldlM_add (h : decls.foldlM add before = .ok ds) (hsorted : Assoc.Sorted before) : Assoc.Sorted ds := by
  refine of_foldlM h (fun d _ acc acc' hadd hacc => ?_) hsorted
  by_cases htaken : Assoc.contains d.name acc = true
  · rw [add, if_pos htaken] at hadd
    cases hadd
  · rw [add, if_neg htaken] at hadd
    cases hadd
    exact hacc.put _ _

/-- Declarations that can be collected after `before` can be collected after more, up to the first
    one whose name is taken there. -/
theorem foldlM_add_after (more after : Declarations) (h : decls.foldlM add before = .ok ds)
    (hafter : ∀ name, Assoc.contains name after = (Assoc.contains name more || Assoc.contains name before)) :
    match decls.find? fun d => Assoc.contains d.name more with
    | none => ∃ ds', decls.foldlM add after = .ok ds'
    | some d => decls.foldlM add after = .error (.duplicateTagName d.name) := by
  induction decls generalizing before after with
  | nil => exact ⟨after, rfl⟩
  | cons d decls ih =>
    rw [List.foldlM_cons] at h
    by_cases htaken : Assoc.contains d.name before = true
    · rw [add, if_pos htaken] at h
      cases h
    rw [add, if_neg htaken] at h
    by_cases hmore : Assoc.contains d.name more = true
    · rw [List.find?_cons_of_pos (p := fun d : Declaration => Assoc.contains d.name more) hmore, List.foldlM_cons, add, if_pos (by rw [hafter, hmore]; rfl)]
      rfl
    · rw [List.find?_cons_of_neg (p := fun d : Declaration => Assoc.contains d.name more) hmore, List.foldlM_cons, add, if_neg (by rw [hafter]; simp [hmore, htaken])]
      refine ih _ h fun name => ?_
      by_cases hname : name = d.name
      · simp [Assoc.contains, hname]
      · simp only [Assoc.contains, Assoc.get?_put_of_ne hname]
        exact hafter name

/-- What is looked up determines the whole. -/
theorem eq_of_get? (h : Assoc.Sorted ds) (h' : Assoc.Sorted ds') (hget : ∀ name, Assoc.get? name ds = Assoc.get? name ds') :
    ds = ds' := by
  have hmem : ∀ e, e ∈ ds ↔ e ∈ ds' := fun e => by
    rw [← Assoc.get?_eq_some_iff h.nodup, ← Assoc.get?_eq_some_iff h'.nodup, hget]
  have hperm : ds.Perm ds' :=
    (List.perm_ext_iff_of_nodup (List.Nodup.of_map _ h.nodup) (List.Nodup.of_map _ h'.nodup)).mpr hmem
  refine hperm.eq_of_pairwise (fun a b _ _ hab hba => ?_) h h'
  exact absurd (String.lt_trans hab hba) (String.lt_irrefl _)

theorem collect_append {decls' : List Declaration} (h : collect decls = .ok ds) :
    collect (decls ++ decls') = decls'.foldlM add ds := by
  rw [collect, List.foldlM_append, show decls.foldlM add [] = .ok ds from h]
  rfl

theorem get?_collect (h : collect decls = .ok ds) (name : String) :
    Assoc.get? name ds = decls.find? (·.name == name) := by
  rw [get?_of_foldlM_add h]
  rfl

theorem contains_of_mem (h : collect decls = .ok ds) {d : Declaration} (hd : d ∈ decls) :
    Assoc.contains d.name ds = true := by
  rw [Assoc.contains, get?_collect h, List.find?_isSome]
  exact ⟨d, hd, beq_self_eq_true _⟩

theorem collect_after (h : collect decls = .ok ds) (hfree : ∀ d ∈ decls, Assoc.contains d.name ds' = false) :
    ∃ both, decls.foldlM add ds' = .ok both := by
  have hstep := foldlM_add_after ds' ds' h fun name => by simp [Assoc.contains, Assoc.get?]
  have hnone : (decls.find? fun d => Assoc.contains d.name ds') = none :=
    List.find?_eq_none.mpr fun d hd => by simp [hfree d hd]
  simpa only [hnone] using hstep

/-! ## Two files -/

/-- The characters and literals of a file that can be read so. -/
def row (text : String) : List Lexeme := (lex .outside text.toList).toOption.getD []

/-- The tag names of a file, in its order. -/
def tagNames (text : String) : List String := ((declarationsOf (row text)).getD []).map (·.name)

/-- The literals of a file stand where they may. -/
def WellPlaced (text : String) : Prop := RowWellPlaced (row text)

instance (text : String) : Decidable (WellPlaced text) := inferInstanceAs (Decidable (RowWellPlaced (row text)))

/-- No stray semicolons meet where `first` ends and `second` begins. -/
def Apart (first second : String) : Prop := EndsInSemicolon (row first) → ¬BeginsWithSemicolon (row second)

instance (first second : String) : Decidable (Apart first second) :=
  inferInstanceAs (Decidable ((solid (row first)).getLast? = some (char ';') → ¬(solid (row second)).head? = some (char ';')))

theorem lex_row {text : String} {ds : Declarations} (h : parse text = .ok ds) :
    lex .outside text.toList = .ok (row text) := by
  rw [parse_eq] at h
  rcases hlex : lex .outside text.toList with e | ls
  · rw [hlex] at h
    cases h
  · rw [row, hlex]
    rfl

/-- A file that can be parsed is read as declarations one after the other. -/
theorem collect_of_parse {text : String} {ds : Declarations} (h : parse text = .ok ds) (hplace : WellPlaced text)
    (hsize : text.length ≤ Nat.pow 2 64) :
    ∃ decls, declarationsOf (row text) = some decls ∧ collect decls = .ok ds := by
  rcases parse_eq_collect (lex_row h) hsize hplace with ⟨decls, hdecls, hparse⟩ | ⟨-, e, he⟩
  · exact ⟨decls, hdecls, hparse.symm.trans h⟩
  · rw [h] at he
    cases he

theorem parse_append_eq {first second : String} {ds ds' : Declarations} {decls decls' : List Declaration}
    (h : parse first = .ok ds) (h' : parse second = .ok ds') (hplace : WellPlaced first) (hplace' : WellPlaced second)
    (hapart : Apart first second) (hsize : (first ++ "\n" ++ second).length ≤ Nat.pow 2 64)
    (hdecls : declarationsOf (row first) = some decls) (hdecls' : declarationsOf (row second) = some decls') :
    parse (first ++ "\n" ++ second) = collect (decls ++ decls') := by
  obtain ⟨lbs, hlbs, hmap⟩ := Option.bind_eq_some_iff.mp hdecls
  obtain ⟨lbs', hlbs', hmap'⟩ := Option.bind_eq_some_iff.mp hdecls'
  obtain ⟨gap, hgap, happend⟩ := lex_append .outside first.toList (lex_row h)
  have hlex : lex .outside (first ++ "\n" ++ second).toList = .ok (row first ++ (gap ++ row second)) := by
    rw [String.toList_append, String.toList_append, List.append_assoc]
    exact (happend second.toList).trans (by rw [lex_row h']; rfl)
  have hblocks : Lexeme.blocks (row first ++ (gap ++ row second)) = some (lbs ++ lbs') := by
    have hblank : AllBlank gap := by
      rcases hgap with rfl | rfl
      · exact nofun
      · exact List.forall_mem_singleton.mpr rfl
    refine blocks_append hlbs (blocks_of_blank hblank hlbs') fun hends hbegins => hapart hends ?_
    rwa [BeginsWithSemicolon, solid_append, solid_of_allBlank hblank] at hbegins
  have hplaced : RowWellPlaced (row first ++ (gap ++ row second)) := by
    intro lb hlb
    rw [hblocks, Option.getD_some] at hlb
    rcases List.mem_append.mp hlb with hlb | hlb
    · exact hplace lb (by rwa [hlbs])
    · exact hplace' lb (by rwa [hlbs'])
  have hread : declarationsOf (row first ++ (gap ++ row second)) = some (decls ++ decls') := by
    rw [declarationsOf, hblocks, Option.bind_some, List.mapM_append, hmap, hmap']
    rfl
  rcases parse_eq_collect hlex hsize hplaced with ⟨all, hall, hparse⟩ | ⟨hnone, -⟩
  · cases hread.symm.trans hall
    exact hparse
  · rw [hread] at hnone
    cases hnone

/-- Files one after the other. Their declarations are those of both, in either order; the first name
    of the second file that the first file has is a duplicate. -/
theorem parse_append {first second : String} {ds ds' : Declarations} (h : parse first = .ok ds)
    (h' : parse second = .ok ds') (hplace : WellPlaced first) (hplace' : WellPlaced second)
    (hapart : Apart first second) (hapart' : Apart second first)
    (hsize : (first ++ "\n" ++ second).length ≤ Nat.pow 2 64) :
    ((∀ name, Assoc.contains name ds = true → Assoc.contains name ds' = false) →
      ∃ both, parse (first ++ "\n" ++ second) = .ok both ∧ parse (second ++ "\n" ++ first) = .ok both ∧
        Assoc.Sorted both ∧ ∀ name, Assoc.get? name both = (Assoc.get? name ds).or (Assoc.get? name ds')) ∧
    ∀ name, Assoc.contains name ds = true → Assoc.contains name ds' = true →
      ∃ shared, (tagNames second).find? (Assoc.contains · ds) = some shared ∧
        parse (first ++ "\n" ++ second) = .error (.duplicateTagName shared) := by
  have hsize' : (second ++ "\n" ++ first).length ≤ Nat.pow 2 64 := by
    simp only [String.length_append] at hsize ⊢
    omega
  have hlength : first.length ≤ Nat.pow 2 64 ∧ second.length ≤ Nat.pow 2 64 := by
    simp only [String.length_append] at hsize
    omega
  obtain ⟨decls, hdecls, hcollect⟩ := collect_of_parse h hplace hlength.1
  obtain ⟨decls', hdecls', hcollect'⟩ := collect_of_parse h' hplace' hlength.2
  have hparse := parse_append_eq h h' hplace hplace' hapart hsize hdecls hdecls'
  have hparse' := parse_append_eq h' h hplace' hplace hapart' hsize' hdecls' hdecls
  rw [collect_append hcollect] at hparse
  rw [collect_append hcollect'] at hparse'
  constructor
  · intro hdisjoint
    obtain ⟨both, hboth⟩ := collect_after hcollect' fun d hd => by
      by_contra htaken
      have hin := hdisjoint d.name (by simpa using htaken)
      rw [contains_of_mem hcollect' hd] at hin
      cases hin
    obtain ⟨both', hboth'⟩ := collect_after hcollect fun d hd => hdisjoint d.name (contains_of_mem hcollect hd)
    have hget : ∀ name, Assoc.get? name both = (Assoc.get? name ds).or (Assoc.get? name ds') := fun name => by
      rw [get?_of_foldlM_add hboth, get?_collect hcollect']
    have hget' : ∀ name, Assoc.get? name both' = (Assoc.get? name ds').or (Assoc.get? name ds) := fun name => by
      rw [get?_of_foldlM_add hboth', get?_collect hcollect]
    have hsorted := sorted_of_foldlM_add hboth (sorted_of_foldlM_add hcollect .nil)
    have hsorted' := sorted_of_foldlM_add hboth' (sorted_of_foldlM_add hcollect' .nil)
    have hsame : both' = both := eq_of_get? hsorted' hsorted fun name => by
      rw [hget, hget']
      rcases hname : Assoc.get? name ds with _ | d
      · simp
      · have hnone := hdisjoint name (by simp [Assoc.contains, hname])
        simp only [Assoc.contains, Option.isSome_eq_false_iff, Option.isNone_iff_eq_none] at hnone
        simp [hnone]
    exact ⟨both, hparse.trans hboth, hparse'.trans (hsame ▸ hboth'), hsorted, hget⟩
  · intro name hname hname'
    have hstep := foldlM_add_after ds ds hcollect' fun name => by simp [Assoc.contains, Assoc.get?]
    rcases hshared : decls'.find? fun d => Assoc.contains d.name ds with _ | d <;> simp only [hshared] at hstep
    · rw [Assoc.contains, get?_collect hcollect', List.find?_isSome] at hname'
      obtain ⟨d, hd, hdname⟩ := hname'
      have hfree := List.find?_eq_none.mp hshared d hd
      rw [eq_of_beq hdname, hname] at hfree
      exact absurd rfl hfree
    · refine ⟨d.name, ?_, hparse.trans hstep⟩
      rw [tagNames, hdecls', Option.getD_some, List.find?_map]
      exact congrArg (Option.map Declaration.name) hshared

theorem of_read {text : String} {α : Type} {f : Declarations → α} {a : α} (h : (parse text).toOption.map f = some a) :
    ∃ ds, parse text = .ok ds ∧ f ds = a := by
  rcases hparse : parse text with e | ds <;> rw [hparse] at h <;> cases h
  exact ⟨ds, rfl, rfl⟩

theorem not_contains_of_keys {name : String} (h : name ∉ Assoc.keys ds) : Assoc.contains name ds = false := by
  rw [Assoc.contains, Option.isSome_eq_false_iff, Option.isNone_iff_eq_none, Option.eq_none_iff_forall_ne_some]
  intro d hd
  exact h (List.mem_map.mpr ⟨_, Assoc.mem_of_get? hd, rfl⟩)

theorem disjoint_of_keys (h : (Assoc.keys ds).Disjoint (Assoc.keys ds')) :
    ∀ name, Assoc.contains name ds = true → Assoc.contains name ds' = false := by
  intro name hname
  refine not_contains_of_keys fun hmem => ?_
  obtain ⟨d, hd⟩ := Option.isSome_iff_exists.mp hname
  exact h (List.mem_map.mpr ⟨_, Assoc.mem_of_get? hd, rfl⟩) hmem

/-- A file with stray semicolons at its end, and one with comments, a literal key and an expression. -/
theorem greeting_and_link :
    let first := "Greeting : String \x7b value = \"a; b\"; \x7d;"
    let second := "// more\nLink : Hyperlink \x7b \"href\" = /* here */ \"x\"; string = ~concat(\"say \", name); \x7d"
    ∃ ds ds' both, parse first = .ok ds ∧ parse second = .ok ds' ∧ parse (first ++ "\n" ++ second) = .ok both ∧
      parse (second ++ "\n" ++ first) = .ok both ∧
      ∀ name, Assoc.get? name both = (Assoc.get? name ds).or (Assoc.get? name ds') := by
  intro first second
  obtain ⟨ds, h, hkeys⟩ : ∃ ds, parse first = .ok ds ∧ Assoc.keys ds = ["Greeting"] := of_read (by decide +kernel)
  obtain ⟨ds', h', hkeys'⟩ : ∃ ds', parse second = .ok ds' ∧ Assoc.keys ds' = ["Link"] := of_read (by decide +kernel)
  have hdisjoint : ∀ name, Assoc.contains name ds = true → Assoc.contains name ds' = false :=
    disjoint_of_keys (by rw [hkeys, hkeys']; simp)
  obtain ⟨both, hboth, hboth', -, hget⟩ := (parse_append h h' (by decide +kernel) (by decide +kernel) (by decide +kernel)
    (by decide +kernel) (by decide +kernel)).1 hdisjoint
  exact ⟨ds, ds', both, h, h', hboth, hboth', hget⟩

/-- Text that looks like a placeholder is taken for a literal of the file before it. -/
theorem lookalike_is_taken_for_a_literal :
    ¬∀ first second ds ds', parse first = .ok ds → parse second = .ok ds' →
      (∀ name, Assoc.contains name ds = true → Assoc.contains name ds' = false) →
      ∃ both, parse (first ++ "\n" ++ second) = .ok both ∧
        ∀ name, Assoc.get? name both = (Assoc.get? name ds).or (Assoc.get? name ds') := by
  intro hall
  obtain ⟨ds, h, hkeys⟩ : ∃ ds, parse "A : String \x7b v = \"x\"; \x7d" = .ok ds ∧ Assoc.keys ds = ["A"] :=
    of_read (by decide +kernel)
  obtain ⟨ds', h', hkeys', halone⟩ : ∃ ds', parse "B : String \x7b v = \"y\"; w = #qs0#; \x7d" = .ok ds' ∧
      Assoc.keys ds' = ["B"] ∧ (Assoc.get? "B" ds').map Declaration.text =
        some "B : String \x7b v = \"y\"; w = \"y\"; \x7d" := by
    obtain ⟨ds', h', hread⟩ := of_read (f := fun ds => (Assoc.keys ds, (Assoc.get? "B" ds).map Declaration.text))
      (a := (["B"], some "B : String \x7b v = \"y\"; w = \"y\"; \x7d"))
      (show (parse "B : String \x7b v = \"y\"; w = #qs0#; \x7d").toOption.map _ = _ by decide +kernel)
    exact ⟨ds', h', congrArg Prod.fst hread, congrArg Prod.snd hread⟩
  obtain ⟨both, hboth, hafter⟩ : ∃ both,
      parse ("A : String \x7b v = \"x\"; \x7d" ++ "\n" ++ "B : String \x7b v = \"y\"; w = #qs0#; \x7d") = .ok both ∧
        (Assoc.get? "B" both).map Declaration.text = some "B : String \x7b v = \"y\"; w = \"x\"; \x7d" :=
    of_read (by decide +kernel)
  obtain ⟨both', hboth', hget⟩ := hall _ _ ds ds' h h' (disjoint_of_keys (by rw [hkeys, hkeys']; simp))
  cases hboth.symm.trans hboth'
  have hnone : Assoc.get? "B" ds = none := by
    have hfree : Assoc.contains "B" ds = false := not_contains_of_keys (by rw [hkeys]; decide)
    simpa [Assoc.contains] using hfree
  rw [hget, hnone, Option.none_or, halone] at hafter
  exact absurd hafter (by decide)

end Declarations

end PageServer
