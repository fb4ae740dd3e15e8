import Mathlib.Data.List.Basic
import Southbound.Proofs.Toml.Scalars

/-!
# Documents of plain values are read back

`read_display` says that a document of tables of plain values, as it is displayed, is read
as those tables with those values.

The reader of statements counts its lines, and each statement takes at least one character,
so it is followed line by line (`ReadsAs`).  The statements then build the tables: a header
adds an empty table behind those that are there, and a pair adds its value to the table
that was stated last (`foldlM_section`).
-/

namespace Southbound.Toml

/-! ## Keys -/

/-- A name that can be a key without quotes. -/
def IsKey (name : String) : Prop := name ≠ "" ∧ ∀ c ∈ name.toList, isKeyChar c = true

instance (name : String) : Decidable (IsKey name) :=
  decidable_of_iff (name ≠ "" ∧ name.toList.all isKeyChar = true)
    (and_congr_right fun _ => List.all_eq_true)

/-- A document in which every name is a key, no two tables have one name, no table has two
values under one name and every value is a text, a switch or an integer of 64 bits. -/
structure Displayable (sections : List (String × List (String × Scalar))) : Prop where
  names : ∀ s ∈ sections, IsKey s.1
  keys : ∀ s ∈ sections, ∀ e ∈ s.2, IsKey e.1
  names_nodup : (sections.map Prod.fst).Nodup
  keys_nodup : ∀ s ∈ sections, (s.2.map Prod.fst).Nodup
  values : ∀ s ∈ sections, ∀ e ∈ s.2, e.2.Writable

/-- A character of a key is none of the signs that the readers look for. -/
theorem ne_of_isKeyChar {c : Char} (h : isKeyChar c = true) (x : Char)
    (hx : isKeyChar x = false := by decide) : c ≠ x := by
  rintro rfl
  cases h.symm.trans hx

theorem IsKey.eq_cons {name : String} (h : IsKey name) :
    ∃ c cs, name.toList = c :: cs ∧ isKeyChar c = true := by
  cases hn : name.toList with
  | nil => exact absurd (String.toList_eq_nil_iff.mp hn) h.1
  | cons c cs => exact ⟨c, cs, rfl, h.2 c (hn ▸ List.mem_cons_self ..)⟩

theorem skipGaps_cons {c : Char} (h : isGap c = false) (cs : List Char) :
    skipGaps (c :: cs) = c :: cs := by
  simp [skipGaps, h]

theorem isGap_of_isKeyChar {c : Char} (h : isKeyChar c = true) : isGap c = false := by
  simp [isGap, ne_of_isKeyChar h ' ', ne_of_isKeyChar h '\t']

section Keys

variable {name : String} {rest : List Char}

theorem readKeyPart_name (h : IsKey name) (hrest : ∀ c ∈ rest.head?, isKeyChar c = false) :
    readKeyPart (name.toList ++ rest) = some (name, rest) := by
  have htake : (name.toList ++ rest).takeWhile isKeyChar = name.toList := by
    rw [List.takeWhile_append_of_pos h.2]
    cases rest with
    | nil => simp
    | cons x rest => simp [hrest x rfl]
  have hdrop : (name.toList ++ rest).dropWhile isKeyChar = rest := by
    rw [List.dropWhile_append_of_pos h.2]
    cases rest with
    | nil => simp
    | cons x rest => simp [hrest x rfl]
  obtain ⟨c, cs, hn, hc⟩ := h.eq_cons
  have hname : String.ofList (c :: cs) = name := by rw [← hn, String.ofList_toList]
  rw [hn, List.cons_append] at htake hdrop ⊢
  rw [readKeyPart, if_neg (ne_of_isKeyChar hc '"'), if_neg (ne_of_isKeyChar hc apostrophe), htake,
    hdrop]
  exact congrArg (fun k => some (k, rest)) hname

/-- A key of one part is read up to a character that cannot belong to it. -/
theorem readKey_name (h : IsKey name) (parts : Nat)
    (hrest : ∀ c ∈ rest.head?, isKeyChar c = false)
    (hpoint : ∀ cs, skipGaps rest ≠ '.' :: cs) :
    readKey (parts + 1) (name.toList ++ rest) = some ([name], skipGaps rest) := by
  have hpart := readKeyPart_name h hrest
  obtain ⟨c, cs, hn, hc⟩ := h.eq_cons
  rw [hn, List.cons_append] at hpart ⊢
  rw [readKey, skipGaps_cons (isGap_of_isKeyChar hc), hpart]
  dsimp only
  split
  next cs heq => exact absurd heq (hpoint cs)
  next => rfl

end Keys

/-! ## Lines -/

/-- The characters of one line of a table. -/
def entryChars (e : String × Scalar) : List Char :=
  e.1.toList ++ ' ' :: '=' :: ' ' :: (e.2.display.toList ++ ['\n'])

/-- Whether characters are the given statements. -/
def ReadsAs (cs : List Char) (statements : List Statement) : Prop :=
  ∀ fuel, cs.length < fuel → readStatements fuel cs = some statements

theorem readsAs_nil : ReadsAs [] [] := by
  intro fuel hfuel
  obtain ⟨fuel, rfl⟩ := Nat.exists_eq_succ_of_ne_zero (Nat.ne_of_gt hfuel)
  rfl

section Lines

variable {cs : List Char} {statements : List Statement}

theorem ReadsAs.blank (h : ReadsAs cs statements) : ReadsAs ('\n' :: cs) statements := by
  intro fuel hfuel
  rw [List.length_cons] at hfuel
  obtain ⟨fuel, rfl⟩ : ∃ n, fuel = n + 1 := ⟨fuel - 1, by omega⟩
  exact h fuel (by omega)

/-- A statement that starts neither a comment nor an empty line is read with its line. -/
theorem ReadsAs.statement (h : ReadsAs cs statements) {c : Char} {tail : List Char}
    {s : Statement} (hc : c ≠ '#' ∧ c ≠ '\n' ∧ c ≠ '\x0d' ∧ isGap c = false)
    (hlength : cs.length ≤ tail.length)
    (hread : readStatement (c :: tail) = some (s, cs)) : ReadsAs (c :: tail) (s :: statements) := by
  intro fuel hfuel
  rw [List.length_cons] at hfuel
  obtain ⟨fuel, rfl⟩ : ∃ n, fuel = n + 1 := ⟨fuel - 1, by omega⟩
  obtain ⟨hcomment, hfeed, hreturn, hgap⟩ := hc
  have hnone : (c = '#' || c = '\n' || c = '\x0d') = false := by simp [hcomment, hfeed, hreturn]
  rw [readStatements, skipGaps_cons hgap]
  simp only [hnone, Bool.false_eq_true, if_false, hread, h fuel (by omega), Option.map_some]

theorem readStatement_header {name : String} (h : IsKey name) (cs : List Char) :
    readStatement ('[' :: (name.toList ++ ']' :: '\n' :: cs)) = some (.header [name], cs) := by
  have hclose (tail : List Char) : skipGaps (']' :: tail) = ']' :: tail :=
    skipGaps_cons (by decide) tail
  have hkey : readKey (nestingLimit - 1) (name.toList ++ ']' :: '\n' :: cs) =
      some ([name], skipGaps (']' :: '\n' :: cs)) := by
    refine readKey_name h (nestingLimit - 2) ?_ fun cs heq => ?_
    · rintro _ ⟨⟩
      decide
    · rw [hclose] at heq
      cases heq
  rw [hclose] at hkey
  obtain ⟨c, tail, hn, hc⟩ := h.eq_cons
  rw [hn, List.cons_append] at hkey ⊢
  unfold readStatement
  split
  next heq =>
    have hbracket := (List.cons_eq_cons.mp (List.cons_eq_cons.mp heq).2).1
    exact absurd hbracket (ne_of_isKeyChar hc '[')
  next heq =>
    obtain rfl := (List.cons_eq_cons.mp heq).2
    rw [hkey]
    rfl
  next hbracket => exact absurd rfl (hbracket _)

theorem readKeyOfPair_name {name : String} (h : IsKey name) {c : Char} (hc : isGap c = false)
    (cs : List Char) :
    readKeyOfPair (name.toList ++ ' ' :: '=' :: ' ' :: c :: cs) = some ([name], c :: cs) := by
  have hequal (tail : List Char) : skipGaps (' ' :: '=' :: tail) = '=' :: tail := rfl
  have hgap (tail : List Char) : skipGaps (' ' :: tail) = skipGaps tail := rfl
  have hkey : readKey (nestingLimit - 1) (name.toList ++ ' ' :: '=' :: ' ' :: c :: cs) =
      some ([name], skipGaps (' ' :: '=' :: ' ' :: c :: cs)) := by
    refine readKey_name h (nestingLimit - 2) ?_ fun cs heq => ?_
    · rintro _ ⟨⟩
      decide
    · rw [hequal] at heq
      cases heq
  rw [hequal] at hkey
  rw [readKeyOfPair, hkey]
  exact congrArg (fun cs => some ([name], cs)) ((hgap _).trans (skipGaps_cons hc cs))

theorem readStatement_pair {name : String} {v : Scalar} (h : IsKey name) (hv : v.Writable)
    (cs : List Char) :
    readStatement (name.toList ++ ' ' :: '=' :: ' ' :: (v.display.toList ++ '\n' :: cs)) =
      some (.pair [name] (.scalar v), cs) := by
  have hvalue (fuel : Nat) := readValue_display hv (atLineEnd_cons cs) fuel 0
  obtain ⟨x, xs, hx, hstart⟩ := display_eq_cons hv
  have hgap : isGap x = false := by
    rcases hstart with ⟨-, rfl | rfl⟩ | hx
    · decide
    · decide
    · exact hx.2.2.2.2
  simp only [hx, List.cons_append] at hvalue ⊢
  have hpair := readKeyOfPair_name h hgap (xs ++ '\n' :: cs)
  obtain ⟨c, tail, hn, hc⟩ := h.eq_cons
  rw [hn, List.cons_append] at hpair ⊢
  have hbracket := ne_of_isKeyChar hc '['
  unfold readStatement
  split
  next heq => exact absurd (List.cons_eq_cons.mp heq).1 hbracket
  next heq => exact absurd (List.cons_eq_cons.mp heq).1 hbracket
  next =>
    rw [hpair]
    dsimp only
    rw [hvalue]
    rfl

theorem ReadsAs.header (h : ReadsAs cs statements) {name : String} (hname : IsKey name) :
    ReadsAs ('[' :: (name.toList ++ ']' :: '\n' :: cs)) (.header [name] :: statements) := by
  refine h.statement (by decide) ?_ (readStatement_header hname cs)
  simp only [List.length_append, List.length_cons]
  omega

theorem ReadsAs.entry (h : ReadsAs cs statements) {e : String × Scalar} (hkey : IsKey e.1)
    (hv : e.2.Writable) :
    ReadsAs (entryChars e ++ cs) (.pair [e.1] (.scalar e.2) :: statements) := by
  have hread := readStatement_pair hkey hv cs
  have hchars : entryChars e ++ cs =
      e.1.toList ++ ' ' :: '=' :: ' ' :: (e.2.display.toList ++ '\n' :: cs) := by
    simp [entryChars]
  rw [hchars]
  obtain ⟨c, tail, hn, hc⟩ := hkey.eq_cons
  rw [hn, List.cons_append] at hread ⊢
  have hstart : c ≠ '#' ∧ c ≠ '\n' ∧ c ≠ '\x0d' ∧ isGap c = false :=
    ⟨ne_of_isKeyChar hc '#', ne_of_isKeyChar hc '\n', ne_of_isKeyChar hc '\x0d',
      isGap_of_isKeyChar hc⟩
  refine h.statement hstart ?_ hread
  simp only [List.length_append, List.length_cons]
  omega

theorem ReadsAs.entries (h : ReadsAs cs statements) {es : List (String × Scalar)}
    (hkeys : ∀ e ∈ es, IsKey e.1) (hvalues : ∀ e ∈ es, e.2.Writable) :
    ReadsAs (es.flatMap entryChars ++ cs)
      (es.map (fun e => .pair [e.1] (.scalar e.2)) ++ statements) := by
  induction es with
  | nil => exact h
  | cons e es ih =>
    rw [List.forall_mem_cons] at hkeys hvalues
    rw [List.flatMap_cons, List.append_assoc]
    exact (ih hkeys.2 hvalues.2).entry hkeys.1 hvalues.1

end Lines

/-! ## Documents -/

/-- The statements of a document of tables of plain values. -/
def statementsOf (sections : List (String × List (String × Scalar))) : List Statement :=
  sections.flatMap fun s => .header [s.1] :: s.2.map fun e => .pair [e.1] (.scalar e.2)

theorem toList_displaySection (name : String) (es : List (String × Scalar)) :
    (displaySection name es).toList =
      '[' :: (name.toList ++ ']' :: '\n' :: es.flatMap entryChars) := by
  have hentries : (es.map fun e => e.1 ++ " = " ++ e.2.display ++ "\n").flatMap String.toList =
      es.flatMap entryChars := by
    rw [List.flatMap_map]
    refine List.flatMap_congr fun e _ => ?_
    simp [entryChars]
  rw [displaySection, String.toList_append, String.toList_join, hentries]
  simp

theorem readsAs_display {sections : List (String × List (String × Scalar))}
    (hnames : ∀ s ∈ sections, IsKey s.1) (hkeys : ∀ s ∈ sections, ∀ e ∈ s.2, IsKey e.1)
    (hvalues : ∀ s ∈ sections, ∀ e ∈ s.2, e.2.Writable) :
    ReadsAs (display sections).toList (statementsOf sections) := by
  induction sections with
  | nil => exact readsAs_nil
  | cons s sections ih =>
    rw [List.forall_mem_cons] at hnames hkeys hvalues
    have htail := ih hnames.2 hkeys.2 hvalues.2
    cases sections with
    | nil =>
      have hlines := (readsAs_nil.entries hkeys.1 hvalues.1).header hnames.1
      rw [List.append_nil, List.append_nil] at hlines
      have hchars : (display [s]).toList = (displaySection s.1 s.2).toList := rfl
      rw [hchars, toList_displaySection]
      simpa [statementsOf] using hlines
    | cons s' sections =>
      have hlines := (htail.blank.entries hkeys.1 hvalues.1).header hnames.1
      have hchars : (display (s :: s' :: sections)).toList =
          (displaySection s.1 s.2).toList ++ '\n' :: (display (s' :: sections)).toList := by
        simp [display, String.intercalate_cons_cons]
      rw [hchars, toList_displaySection]
      simpa [statementsOf] using hlines

/-! ## Tables -/

theorem alter_of_notMem {k : String} {es : Entries} (h : k ∉ es.map Prod.fst)
    (f : Option Node → Option Node) :
    alter k f es = (f none).map fun n => es ++ [(k, n)] := by
  induction es with
  | nil => rfl
  | cons e es ih =>
    obtain ⟨k', n⟩ := e
    rw [List.map_cons, List.mem_cons, not_or] at h
    rw [alter, if_neg (Ne.symm h.1), ih h.2]
    cases f none <;> rfl

theorem alter_concat {k : String} {es : Entries} (h : k ∉ es.map Prod.fst)
    (f : Option Node → Option Node) (n : Node) :
    alter k f (es ++ [(k, n)]) = (f (some n)).map fun n => es ++ [(k, n)] := by
  induction es with
  | nil =>
    rw [List.nil_append, alter, if_pos rfl]
    rfl
  | cons e es ih =>
    obtain ⟨k', n'⟩ := e
    rw [List.map_cons, List.mem_cons, not_or] at h
    rw [List.cons_append, alter, if_neg (Ne.symm h.1), ih h.2]
    cases f (some n) <;> rfl

/-- The entries of a table of plain values under construction. -/
def nodesOf (es : List (String × Scalar)) : Entries := es.map fun e => (e.1, .value (.scalar e.2))

theorem keys_nodesOf (es : List (String × Scalar)) :
    (nodesOf es).map Prod.fst = es.map Prod.fst := by
  simp [nodesOf]

/-- A pair adds its value to the table that was stated last. -/
theorem add_pair {root : Entries} {name : String} {es : List (String × Scalar)}
    {e : String × Scalar} (hname : name ∉ root.map Prod.fst) (hkey : e.1 ∉ es.map Prod.fst) :
    Draft.add ⟨root ++ [(name, .table .stated (nodesOf es))], [name]⟩
        (.pair [e.1] (.scalar e.2)) =
      some ⟨root ++ [(name, .table .stated (nodesOf (es ++ [e])))], [name]⟩ := by
  have hput : put [e.1] (.scalar e.2) (nodesOf es) = some (nodesOf (es ++ [e])) := by
    rw [← keys_nodesOf] at hkey
    show putNew e.1 (.scalar e.2) (nodesOf es) = _
    rw [putNew, alter_of_notMem hkey]
    simp [nodesOf]
  have halter : alterAt (put [e.1] (.scalar e.2)) [name]
        (root ++ [(name, .table .stated (nodesOf es))]) =
      some (root ++ [(name, .table .stated (nodesOf (es ++ [e])))]) := by
    rw [alterAt, alter_concat hname]
    simp [alterAt, hput]
  simp [Draft.add, halter]

theorem foldlM_pairs {root : Entries} {name : String} (hname : name ∉ root.map Prod.fst)
    (es done : List (String × Scalar)) (hkeys : ((done ++ es).map Prod.fst).Nodup) :
    (es.map fun e => Statement.pair [e.1] (.scalar e.2)).foldlM Draft.add
        ⟨root ++ [(name, .table .stated (nodesOf done))], [name]⟩ =
      some ⟨root ++ [(name, .table .stated (nodesOf (done ++ es)))], [name]⟩ := by
  induction es generalizing done with
  | nil => simp
  | cons e es ih =>
    have hkey : e.1 ∉ done.map Prod.fst := by
      rw [List.map_append, List.map_cons, List.nodup_append] at hkeys
      intro hmem
      exact hkeys.2.2 _ hmem _ (List.mem_cons_self ..) rfl
    have hsplit : done ++ e :: es = done ++ [e] ++ es := by simp
    rw [List.map_cons, List.foldlM_cons, add_pair hname hkey, hsplit]
    exact ih (done ++ [e]) (hsplit ▸ hkeys)

/-- A table with its values is added behind those that are there. -/
theorem foldlM_section {root : Entries} {current : List String}
    {s : String × List (String × Scalar)} (hname : s.1 ∉ root.map Prod.fst)
    (hkeys : (s.2.map Prod.fst).Nodup) :
    (Statement.header [s.1] :: s.2.map fun e => .pair [e.1] (.scalar e.2)).foldlM Draft.add
        ⟨root, current⟩ =
      some ⟨root ++ [(s.1, .table .stated (nodesOf s.2))], [s.1]⟩ := by
  have hstate : alterAt (stateTable s.1) [] root = some (root ++ [(s.1, .table .stated [])]) := by
    rw [alterAt, stateTable, alter_of_notMem hname]
    rfl
  have hheader : Draft.add ⟨root, current⟩ (.header [s.1]) =
      some ⟨root ++ [(s.1, .table .stated (nodesOf []))], [s.1]⟩ := by
    simp [Draft.add, hstate, nodesOf]
  rw [List.foldlM_cons, hheader]
  exact foldlM_pairs hname s.2 [] hkeys

/-- The tables of a document of plain values under construction. -/
def tablesOf (sections : List (String × List (String × Scalar))) : Entries :=
  sections.map fun s => (s.1, .table .stated (nodesOf s.2))

theorem foldlM_sections (sections done : List (String × List (String × Scalar)))
    (hnames : ((done ++ sections).map Prod.fst).Nodup)
    (hkeys : ∀ s ∈ sections, (s.2.map Prod.fst).Nodup) (current : List String) :
    ∃ last, (statementsOf sections).foldlM Draft.add ⟨tablesOf done, current⟩ =
      some ⟨tablesOf (done ++ sections), last⟩ := by
  induction sections generalizing done current with
  | nil => exact ⟨current, by simp [statementsOf]⟩
  | cons s sections ih =>
    rw [List.forall_mem_cons] at hkeys
    have hname : s.1 ∉ (tablesOf done).map Prod.fst := by
      rw [List.map_append, List.map_cons, List.nodup_append] at hnames
      have hdone : (tablesOf done).map Prod.fst = done.map Prod.fst := by simp [tablesOf]
      rw [hdone]
      intro hmem
      exact hnames.2.2 _ hmem _ (List.mem_cons_self ..) rfl
    have hsplit : done ++ s :: sections = done ++ [s] ++ sections := by simp
    have hadd : tablesOf done ++ [(s.1, .table .stated (nodesOf s.2))] = tablesOf (done ++ [s]) := by
      simp [tablesOf]
    obtain ⟨last, hlast⟩ := ih (done ++ [s]) (hsplit ▸ hnames) hkeys.2 [s.1]
    refine ⟨last, ?_⟩
    rw [statementsOf, List.flatMap_cons, List.foldlM_append, foldlM_section hname hkeys.1, hadd,
      hsplit]
    exact hlast

theorem finishEntries_eq_map (es : Entries) :
    finishEntries es = es.map fun e => (e.1, e.2.finish) := by
  induction es with
  | nil => rfl
  | cons e es ih => rw [finishEntries, ih, List.map_cons]

/-- The tables that a document of plain values writes. -/
def tableOf (sections : List (String × List (String × Scalar))) : Toml :=
  .table (sections.map fun s => (s.1, .table (s.2.map fun e => (e.1, .scalar e.2))))

/-- A document of plain values is read as it is displayed. -/
theorem read_display {sections : List (String × List (String × Scalar))}
    (h : Displayable sections) : read (display sections) = some (tableOf sections) := by
  have hmark : ∀ cs, (display sections).toList ≠ '\uFEFF' :: cs := by
    cases sections with
    | nil => nofun
    | cons s sections =>
      intro cs hcs
      have hfirst : (display (s :: sections)).toList.head? = some '[' := by
        cases sections with
        | nil => exact congrArg List.head? (toList_displaySection s.1 s.2)
        | cons s' sections =>
          simp [display, String.intercalate_cons_cons, toList_displaySection]
      rw [hcs] at hfirst
      cases hfirst
  have hlines := readsAs_display h.names h.keys h.values
  obtain ⟨last, hfold⟩ := foldlM_sections sections [] h.names_nodup h.keys_nodup []
  have hread : readStatements ((display sections).toList.length + 1) (display sections).toList =
      some (statementsOf sections) := hlines _ (Nat.lt_succ_self _)
  have hbuild : ofStatements (statementsOf sections) = some (tableOf sections) := by
    have hstart : (statementsOf sections).foldlM Draft.add {} =
        some ⟨tablesOf sections, last⟩ := hfold
    simp [ofStatements, hstart, finishEntries_eq_map, tablesOf, tableOf, nodesOf, Node.finish]
  rw [read]
  split
  next cs heq => exact absurd heq (hmark cs)
  next =>
    rw [hread]
    exact hbuild

end Southbound.Toml
