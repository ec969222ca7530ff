import Passwise.Proofs.FileNames
import Passwise.Proofs.Tables

set_option autoImplicit false

namespace Passwise

namespace Csv

theorem length_distinctNames (header : List String) :
    (distinctNames header).length = header.length := by
  have fold (order : List Nat) (n : Naming) :
      (order.foldl Naming.settle n).names.length = n.names.length := by
    induction order generalizing n with
    | nil => rfl
    | cons i order ih =>
      rw [List.foldl_cons, ih, Naming.settle]
      split
      · rfl
      · exact List.length_set
  rw [distinctNames, fold, List.length_map, List.length_zipIdx]

theorem wide_of_read {text : String} {t : Table} (read : read text = .ok t) : t.Wide := by
  obtain ⟨lines, -, made⟩ := bind_eq_ok.mp read
  split at made
  · cases made
  · dsimp only at made
    split at made
    · cases made
    · cases made
      refine Table.wide_ofColumns ?_ _
      rw [List.length_map, List.length_range, length_distinctNames]

end Csv

namespace Files

variable {files : Files} {p hit : Place} {pattern name : String}

theorem pathParts_of_plain (whole : '/' ∉ pattern.toList) (filled : pattern.isEmpty = false)
    (idle : pattern ≠ ".") : pathParts pattern = [pattern] := by
  rw [pathParts, List.splitOn_eq_singleton whole, List.map_singleton, String.ofList_toList]
  simp [filled, idle]

theorem exists_name_of_select {names : List String} (depth : pattern ≠ "**")
    (above : pattern ≠ "..") (member : (names, hit) ∈ files.select [pattern] p) :
    ∃ name ∈ files.namesIn p, Text.matchesPattern pattern name = true ∧ hit = p.child name := by
  rw [select, if_neg depth, if_neg above, List.mem_flatMap] at member
  obtain ⟨name, inside, member⟩ := member
  dsimp only at member
  split_ifs at member with fits
  · rw [Bool.and_eq_true] at fits
    simp only [select, List.map_cons, List.map_nil, List.mem_singleton, Prod.mk.injEq] at member
    exact ⟨name, inside, fits.1, member.2⟩
  · cases member

end Files

namespace Archive

variable {files : Files} {folder : List String} {p hit : Place} {q : Request} {method : String}
  {seed : Int}

theorem exists_name_of_firstMatch? {pattern : String} (whole : '/' ∉ pattern.toList)
    (line : '_' ∈ pattern.toList)
    (found : firstMatch? files folder p pattern = .ok (some hit)) :
    ∃ name ∈ files.namesIn p, Text.matchesPattern pattern name = true ∧ hit = p.child name := by
  have apart {text : String} (free : '_' ∉ text.toList) : pattern ≠ text :=
    fun same => free (same ▸ line)
  have filled : pattern.isEmpty = false := by
    rw [← Bool.not_eq_true, String.isEmpty_iff]
    exact apart (by decide)
  obtain ⟨parts, split, found⟩ := bind_eq_ok.mp found
  have single : parts = [pattern] := by
    rw [← Files.pathParts_of_plain whole filled (apart (by decide))]
    rw [Files.patternParts] at split
    split_ifs at split
    exact (Except.ok.inj split).symm
  rw [single] at found
  obtain ⟨⟨path, _⟩, first, rfl⟩ := Option.map_eq_some_iff.mp (Except.ok.inj found)
  have member := List.mem_mergeSort.mp (List.mem_of_head? first)
  obtain ⟨⟨names, _⟩, selected, same⟩ := List.mem_map.mp member
  cases same
  exact Files.exists_name_of_select (apart (by decide)) (apart (by decide)) selected

theorem toList_pattern (q : Request) (method : String) (seed : Int) :
    (pattern q.experiment (.text method) (.whole seed)).toList =
      (beforeStar q method).toList ++ '*' :: (afterStar seed).toList := by
  rw [pattern_eq, String.toList_append, String.toList_append, List.append_assoc]
  rfl

theorem underscore_mem_pattern (q : Request) (method : String) (seed : Int) :
    '_' ∈ (pattern q.experiment (.text method) (.whole seed)).toList := by
  simp [toList_pattern, afterStar]

theorem Request.Plain.whole (plain : q.Plain method) (seed : Int) :
    '/' ∉ (pattern q.experiment (.text method) (.whole seed)).toList := by
  have none {text : String} (plain : Text.Plain text) : '/' ∉ text.toList :=
    fun member => absurd (List.all_eq_true.mp plain '/' member) (by decide)
  simp [toList_pattern, none plain.beforeStar, none (plain_afterStar seed)]

def labelled (h : Table) (method : String) (seed : Int) : Table :=
  (h.setColumn "seed" (List.replicate h.rows.length (.whole seed))).setColumn "method"
    (List.replicate h.rows.length (.text method))

theorem exists_history {t : Table} (plain : q.Plain method)
    (found : history? files folder p q.experiment (.text method) (.whole seed) = .ok (some t)) :
    ∃ name ∈ files.namesIn p,
      Text.matchesPattern (pattern q.experiment (.text method) (.whole seed)) name = true ∧
      ∃ text h, files.content? (p.child name) = some text ∧ Csv.read text = .ok h ∧
        t = labelled h method seed := by
  obtain ⟨hit?, first, made⟩ := bind_eq_ok.mp found
  cases hit? with
  | none => cases made
  | some hit =>
    obtain ⟨name, inside, fits, rfl⟩ :=
      exists_name_of_firstMatch? (plain.whole seed) (underscore_mem_pattern q method seed) first
    obtain ⟨text, content, made⟩ := bind_eq_ok.mp made
    obtain ⟨h, read, made⟩ := bind_eq_ok.mp made
    refine ⟨name, inside, fits, text, h, ?_, read, ?_⟩
    · rw [Files.read] at content
      split at content
      · cases content
        assumption
      · cases content
    · let seeded := h.setColumn "seed" (List.replicate h.rows.length (.whole seed))
      have whole : seeded.setColumn "method" (List.replicate seeded.rows.length (.text method)) =
          t := Option.some.inj (Except.ok.inj made)
      rw [← whole, Table.length_setColumn List.length_replicate]
      rfl

section Labels

variable {h : Table} (wide : h.Wide)

include wide

theorem column?_labelled_method :
    (labelled h method seed).column? "method" =
      some (List.replicate h.rows.length (.text method)) := by
  refine Table.column?_setColumn_self wide.setColumn ?_
  rw [Table.length_setColumn List.length_replicate, List.length_replicate]

theorem column?_labelled_of_ne {name : String} (apart : name ≠ "method") :
    (labelled h method seed).column? name =
      (h.setColumn "seed" (List.replicate h.rows.length (.whole seed))).column? name := by
  refine Table.column?_setColumn_of_ne wide.setColumn ?_ apart
  rw [Table.length_setColumn List.length_replicate, List.length_replicate]

theorem column?_labelled_seed :
    (labelled h method seed).column? "seed" =
      some (List.replicate h.rows.length (.whole seed)) := by
  rw [column?_labelled_of_ne wide (by decide),
    Table.column?_setColumn_self wide List.length_replicate]

theorem column?_labelled {name : String} (apart : name ≠ "method") (apart' : name ≠ "seed") :
    (labelled h method seed).column? name = h.column? name := by
  rw [column?_labelled_of_ne wide apart,
    Table.column?_setColumn_of_ne wide List.length_replicate apart']

theorem cellAt?_labelled_method {j : Nat} (inside : j < h.rows.length) :
    (labelled h method seed).cellAt? "method" j = some (.text method) := by
  rw [Table.cellAt?, column?_labelled_method wide, Option.bind_some, List.getElem?_replicate,
    if_pos inside]

theorem cellAt?_labelled_seed {j : Nat} (inside : j < h.rows.length) :
    (labelled h method seed).cellAt? "seed" j = some (.whole seed) := by
  rw [Table.cellAt?, column?_labelled_seed wide, Option.bind_some, List.getElem?_replicate,
    if_pos inside]

theorem cellAt?_labelled {name : String} (apart : name ≠ "method") (apart' : name ≠ "seed")
    (j : Nat) : (labelled h method seed).cellAt? name j = h.cellAt? name j := by
  rw [Table.cellAt?, column?_labelled wide apart apart', Table.cellAt?]

end Labels

theorem mem_names_labelled {h : Table} {name : String} :
    name ∈ (labelled h method seed).names ↔ (name ∈ h.names ∨ name = "seed") ∨ name = "method" := by
  rw [labelled, Table.mem_names_setColumn, Table.mem_names_setColumn]

theorem length_labelled (h : Table) (method : String) (seed : Int) :
    (labelled h method seed).rows.length = h.rows.length := by
  have size : (h.setColumn "seed" (List.replicate h.rows.length (.whole seed))).rows.length =
      h.rows.length := Table.length_setColumn List.length_replicate
  rw [labelled, Table.length_setColumn (by rw [List.length_replicate, size]), size]

-- Numbers of which some fit a word only with a sign, and others only without one.
def Mixed (numbers : List Int) : Prop :=
  (∃ n ∈ numbers, Word.fitsSigned n = true) ∧
    ∃ n ∈ numbers, Word.fitsSigned n = false ∧ Word.fitsUnsigned n = true

theorem kind_replicate_whole (count : Nat) (n : Int) :
    Column.kind (List.replicate (count + 1) (.whole n)) =
      if Word.fitsSigned n then .whole else if Word.fitsUnsigned n then .unsigned else .mixed := by
  simp [Column.kind, Cell.isFlag, Column.isSigned, Column.isUnsigned, Column.isReal]

theorem kind_replicate_text (count : Nat) (s : String) :
    Column.kind (List.replicate count (.text s)) = .mixed := by
  cases count <;> simp [Column.kind, Cell.isFlag, Column.isSigned, Column.isUnsigned, Column.isReal]

section Wholes

variable {columns : List (Nat × Option (List Cell))} {numbers : List Int}
  (each : ∀ count cells, (count, cells) ∈ columns → ∃ n ∈ numbers,
    cells = some (List.replicate count (.whole n)))

include each

theorem kind_of_wholes {k : Kind}
    (member : k ∈ columns.filterMap fun (_, cells) => cells.map Column.kind) :
    ∃ n ∈ numbers, k = .mixed ∨ k = .whole ∧ Word.fitsSigned n = true ∨
      k = .unsigned ∧ Word.fitsSigned n = false ∧ Word.fitsUnsigned n = true := by
  obtain ⟨⟨count, cells⟩, inside, same⟩ := List.mem_filterMap.mp member
  obtain ⟨n, known, rfl⟩ := each _ _ inside
  refine ⟨n, known, ?_⟩
  obtain rfl := Option.some.inj same
  cases count with
  | zero => exact .inl rfl
  | succ count =>
    rw [kind_replicate_whole]
    split_ifs with signed unsigned
    · exact .inr (.inl ⟨rfl, signed⟩)
    · exact .inr (.inr ⟨rfl, Bool.eq_false_iff.mpr signed, unsigned⟩)
    · exact .inl rfl

theorem whole_of_joined {c : Cell} (member : c ∈ Column.joined columns) :
    ∃ n ∈ numbers, c = .whole n := by
  obtain ⟨⟨count, cells⟩, inside, here⟩ := List.mem_flatMap.mp member
  obtain ⟨n, known, rfl⟩ := each _ _ inside
  exact ⟨n, known, (List.mem_replicate.mp here).2⟩

theorem join_wholes : Column.join columns = Column.joined columns ∨
    Mixed numbers ∧ Column.join columns = Column.toReals (Column.joined columns) := by
  have everywhere : columns.all (fun (_, cells) => cells.isSome) = true := by
    rw [List.all_eq_true]
    rintro ⟨count, cells⟩ inside
    obtain ⟨n, -, rfl⟩ := each _ _ inside
    rfl
  have noReal : (columns.filterMap fun (_, cells) => cells.map Column.kind).contains .real =
      false := by
    rw [← Bool.not_eq_true, List.contains_iff_mem]
    intro member
    obtain ⟨n, -, same⟩ := kind_of_wholes each member
    simp at same
  unfold Column.join
  dsimp only
  rw [everywhere, noReal]
  split_ifs with asGiven real
  · exact .inl rfl
  · rw [Bool.not_true, Bool.false_or, Bool.false_or, Bool.and_eq_true, List.contains_iff_mem,
      List.contains_iff_mem] at real
    obtain ⟨n, known, signed⟩ := kind_of_wholes each real.1
    obtain ⟨n', known', unsigned⟩ := kind_of_wholes each real.2
    exact .inr ⟨⟨⟨n, known, by simpa using signed⟩, n', known', by simpa using unsigned⟩, rfl⟩
  · left
    rw [Column.toWholes, ← Column.joined]
    conv_rhs => rw [← List.map_id (Column.joined columns)]
    refine List.map_congr_left fun c member => ?_
    obtain ⟨n, -, rfl⟩ := whole_of_joined each member
    rfl

end Wholes

theorem tables_of_load {path : String} {seeds : List Int} {methods : List String} {t : Table}
    (place : files.place? path = some p)
    (loaded : load files (.text path) q.experiment (.list (seeds.map .whole))
      (.list (methods.map .text)) = .ok t) :
    ∃ tables, t = Table.concat tables ∧ ∀ u ∈ tables, ∃ method ∈ methods, ∃ seed ∈ seeds,
      history? files (pathParts path) p q.experiment (.text method) (.whole seed) =
        .ok (some u) := by
  rw [load, place] at loaded
  obtain ⟨items, listed, loaded⟩ := bind_eq_ok.mp loaded
  cases listed
  obtain ⟨wanted, pairs, loaded⟩ := bind_eq_ok.mp loaded
  obtain ⟨found, searched, loaded⟩ := bind_eq_ok.mp loaded
  dsimp only at loaded
  split at loaded
  · cases loaded
  · refine ⟨found.filterMap id, (Except.ok.inj loaded).symm, fun u member => ?_⟩
    obtain ⟨_, inside, rfl⟩ := List.mem_filterMap.mp member
    obtain ⟨⟨method, seed⟩, pair, here⟩ := exists_of_mem_mapM searched inside
    obtain ⟨row, among, pair⟩ := List.mem_flatten.mp pair
    obtain ⟨seedGiven, seedMember, made⟩ := exists_of_mem_mapM pairs among
    cases made
    obtain ⟨methodGiven, methodMember, same⟩ := List.mem_map.mp pair
    cases same
    obtain ⟨seed, asked, rfl⟩ := List.mem_map.mp seedMember
    obtain ⟨method, asked', rfl⟩ := List.mem_map.mp methodMember
    exact ⟨method, asked', seed, asked, here⟩

def OnlyHistories (files : Files) (p : Place) : Prop :=
  ∀ name ∈ files.namesIn p, ".csv".toList <:+ name.toList → ∃ r : RunName, name = r.fileName

-- Row `k` of a table is a row of the history of `r`, apart from the labels.
def Stems (files : Files) (p : Place) (r : RunName) (t : Table) (k : Nat) : Prop :=
  ∃ text h j, files.content? (p.child r.fileName) = some text ∧ Csv.read text = .ok h ∧
    j < h.rows.length ∧ (∀ name ∈ h.names, name ∈ t.names) ∧
    ∀ name ∈ t.names, name ≠ "method" → name ≠ "seed" → ∃ shown, t.cellAt? name k = some shown ∧
      Cell.Carried ((h.cellAt? name j).getD .missing) shown

theorem exists_run_of_match {name : String} (plain : q.Plain method)
    (histories : OnlyHistories files p) (inside : name ∈ files.namesIn p)
    (fits : Text.matchesPattern (pattern q.experiment (.text method) (.whole seed)) name = true) :
    ∃ r : RunName, name = r.fileName ∧ r.Answers q method seed := by
  obtain ⟨r, rfl⟩ := histories name inside <| by
    rw [pattern_eq, Text.matchesPattern_star plain.beforeStar (plain_afterStar seed)] at fits
    obtain ⟨skipped, whole⟩ := fits
    rw [whole, afterStar, String.toList_append, ← List.append_assoc]
    exact List.suffix_append _ _
  exact ⟨r, rfl, (matches_iff plain seed r).mp fits⟩

theorem cellAt?_concat_of_row {tables : List Table} {u : Table} {name : String} {j k : Nat}
    (member : name ∈ (Table.concat tables).names)
    (here : (Column.joined (Table.columnsOf tables name))[k]? =
      some ((u.cellAt? name j).getD .missing)) :
    ∃ shown, (Table.concat tables).cellAt? name k = some shown ∧
      Cell.Carried ((u.cellAt? name j).getD .missing) shown := by
  obtain ⟨convert, whole, carried⟩ := Column.exists_join (Table.columnsOf tables name)
  refine ⟨_, ?_, carried _⟩
  rw [Table.cellAt?_concat member, whole, List.getElem?_map, here, Option.map_some]

section Loading

variable {path : String} {seeds : List Int} {methods : List String} {t : Table}

structure Found (files : Files) (p : Place) (q : Request) (methods : List String)
    (seeds : List Int) where
  run : RunName
  method : String
  seed : Int
  text : String
  history : Table
  asked : method ∈ methods
  asked' : seed ∈ seeds
  answers : run.Answers q method seed
  content : files.content? (p.child run.fileName) = some text
  read : Csv.read text = .ok history

namespace Found

variable {tables : List Table} {j k : Nat} (r : Found files p q methods seeds)

def table : Table := labelled r.history r.method r.seed

theorem exists_of_history {u : Table} (plain : ∀ method ∈ methods, q.Plain method)
    (histories : OnlyHistories files p) (asked : method ∈ methods) (asked' : seed ∈ seeds)
    (found : history? files folder p q.experiment (.text method) (.whole seed) = .ok (some u)) :
    ∃ r : Found files p q methods seeds, r.table = u := by
  obtain ⟨name, inside, fits, text, h, content, read, rfl⟩ :=
    exists_history (plain method asked) found
  obtain ⟨r, rfl, answers⟩ := exists_run_of_match (plain method asked) histories inside fits
  exact ⟨⟨r, method, seed, text, h, asked, asked', answers, content, read⟩, rfl⟩

theorem wide : r.history.Wide := Csv.wide_of_read r.read

theorem length : r.table.rows.length = r.history.rows.length := length_labelled ..

theorem mem_names_concat (member : r.table ∈ tables) {name : String}
    (known : (name ∈ r.history.names ∨ name = "seed") ∨ name = "method") :
    name ∈ (Table.concat tables).names :=
  Table.mem_names_concat.mpr ⟨r.table, member, mem_names_labelled.mpr known⟩

theorem method_cell (member : r.table ∈ tables) (inside : j < r.table.rows.length)
    (row : (Column.joined (Table.columnsOf tables "method"))[k]? =
      some ((r.table.cellAt? "method" j).getD .missing)) :
    (Table.concat tables).cellAt? "method" k = some (.text r.method) := by
  rw [r.length] at inside
  have among : (r.table.rows.length,
      some (List.replicate r.history.rows.length (.text r.method))) ∈
        Table.columnsOf tables "method" :=
    List.mem_map.mpr ⟨r.table, member, by rw [table, column?_labelled_method r.wide]⟩
  rw [Table.cellAt?_concat (r.mem_names_concat member (.inr rfl)),
    Column.join_of_mixed among (kind_replicate_text _ _), row, table,
    cellAt?_labelled_method r.wide inside, Option.getD_some]

theorem seed_cell (each : ∀ u ∈ tables, ∃ r : Found files p q methods seeds, r.table = u)
    (member : r.table ∈ tables) (inside : j < r.table.rows.length)
    (row : (Column.joined (Table.columnsOf tables "seed"))[k]? =
      some ((r.table.cellAt? "seed" j).getD .missing)) :
    (Table.concat tables).cellAt? "seed" k = some (.whole r.seed) ∨
      Mixed seeds ∧ (Table.concat tables).cellAt? "seed" k = some (.real (Float.ofInt r.seed)) := by
  rw [r.length] at inside
  have wholes : ∀ count cells, (count, cells) ∈ Table.columnsOf tables "seed" →
      ∃ n ∈ seeds, cells = some (List.replicate count (.whole n)) := by
    intro count cells among
    obtain ⟨_, member, same⟩ := List.mem_map.mp among
    obtain ⟨r, rfl⟩ := each _ member
    cases same
    exact ⟨r.seed, r.asked', by rw [table, column?_labelled_seed r.wide, length_labelled]⟩
  rw [table, cellAt?_labelled_seed r.wide inside, Option.getD_some] at row
  rw [Table.cellAt?_concat (r.mem_names_concat member (.inl (.inr rfl)))]
  rcases join_wholes wholes with same | ⟨mixed, same⟩
  · exact .inl (by rw [same, row])
  · exact .inr ⟨mixed, by rw [same, Column.toReals, List.getElem?_map, row]; rfl⟩

theorem stems (member : r.table ∈ tables) (inside : j < r.table.rows.length)
    (row : ∀ name, (Column.joined (Table.columnsOf tables name))[k]? =
      some ((r.table.cellAt? name j).getD .missing)) :
    Stems files p r.run (Table.concat tables) k := by
  refine ⟨r.text, r.history, j, r.content, r.read, r.length ▸ inside, fun name known => ?_,
    fun name named apart apart' => ?_⟩
  · exact r.mem_names_concat member (.inl (.inl known))
  · have here := row name
    rw [table, cellAt?_labelled r.wide apart apart'] at here
    exact cellAt?_concat_of_row named here

end Found

-- Row `k` is of a run that was asked for, under the method and the seed of that run.
def Requested (files : Files) (p : Place) (q : Request) (methods : List String)
    (seeds : List Int) (t : Table) (k : Nat) : Prop :=
  ∃ r : RunName, ∃ method ∈ methods, ∃ seed ∈ seeds, r.Answers q method seed ∧
    t.cellAt? "method" k = some (.text method) ∧
    (t.cellAt? "seed" k = some (.whole seed) ∨
      Mixed seeds ∧ t.cellAt? "seed" k = some (.real (Float.ofInt seed))) ∧
    Stems files p r t k

theorem requested_of_load (plain : ∀ method ∈ methods, q.Plain method)
    (place : files.place? path = some p) (histories : OnlyHistories files p)
    (loaded : load files (.text path) q.experiment (.list (seeds.map .whole))
      (.list (methods.map .text)) = .ok t) {k : Nat} (inside : k < t.rows.length) :
    Requested files p q methods seeds t k := by
  obtain ⟨tables, rfl, each⟩ := tables_of_load place loaded
  have each : ∀ u ∈ tables, ∃ r : Found files p q methods seeds, r.table = u := by
    intro u member
    obtain ⟨method, asked, seed, asked', found⟩ := each u member
    exact Found.exists_of_history plain histories asked asked' found
  obtain ⟨_, member, j, within, row⟩ := Table.exists_row inside
  obtain ⟨r, rfl⟩ := each _ member
  exact ⟨r.run, r.method, r.asked, r.seed, r.asked', r.answers,
    r.method_cell member within (row _), r.seed_cell each member within (row _),
    r.stems member within row⟩

theorem loads_requested_runs (plain : ∀ method ∈ methods, q.Plain method) (seeds : List Int) :
    (∀ method ∈ methods, ∀ (seed : Int) (r : RunName),
      Text.matchesPattern (pattern q.experiment (.text method) (.whole seed)) r.fileName = true ↔
        r.Answers q method seed) ∧
    ∀ (files : Files) (path : String) (p : Place) (t : Table), files.place? path = some p →
      OnlyHistories files p →
      load files (.text path) q.experiment (.list (seeds.map .whole))
        (.list (methods.map .text)) = .ok t →
      ∀ k < t.rows.length, Requested files p q methods seeds t k :=
  ⟨fun method asked seed r => matches_iff (plain method asked) seed r,
    fun _ _ _ _ place histories loaded _ inside =>
      requested_of_load plain place histories loaded inside⟩

end Loading

section Near

def near (seed : Int) : RunName := ⟨.ridge, .conjugate, .linear, 8, 2, 3, seed⟩

def large : Int := 9223372036854775809

def nearText : String := "iter,rows\n1,8\n"

def nearFiles : Files := [1, 11, large].map fun seed => ("results/" ++ (near seed).fileName, nearText)

def results : Place := ⟨0, ["results"]⟩

def nearTable (method : String) (seed : Int) : Table :=
  ⟨["iter", "rows", "seed", "method"], [[.whole 1, .whole 8, .whole seed, .text method]]⟩

variable {method : String}

theorem history_near {seed : Int}
    (parts : Files.patternParts (pattern (near 1).request.experiment (.text method) (.whole seed)) =
      .ok [pattern (near 1).request.experiment (.text method) (.whole seed)])
    (selected : nearFiles.select
      [pattern (near 1).request.experiment (.text method) (.whole seed)] results =
        [([(near seed).fileName], results.child (near seed).fileName)])
    (content : nearFiles.content? (results.child (near seed).fileName) = some nearText) :
    history? nearFiles ["results"] results (near 1).request.experiment (.text method)
      (.whole seed) = .ok (some (nearTable method seed)) := by
  have found : firstMatch? nearFiles ["results"] results
      (pattern (near 1).request.experiment (.text method) (.whole seed)) =
        .ok (some (results.child (near seed).fileName)) := by
    rw [firstMatch?, parts, ok_bind, selected]
    simp
  rw [history?, found, ok_bind]
  dsimp only
  rw [Files.read, content]
  rfl

theorem histories_near {seeds : List Int}
    (each : ∀ seed ∈ seeds, history? nearFiles ["results"] results (near 1).request.experiment
      (.text method) (.whole seed) = .ok (some (nearTable method seed))) :
    (seeds.map fun seed => (Literal.text method, Literal.whole seed)).mapM
      (fun (method, seed) => history? nearFiles ["results"] results (near 1).request.experiment
        method seed) = .ok (seeds.map fun seed => some (nearTable method seed)) := by
  rw [List.mapM_map]
  exact mapM_ok each

theorem load_near {seeds : List Int} (filled : seeds ≠ [])
    (each : ∀ seed ∈ seeds, history? nearFiles ["results"] results (near 1).request.experiment
      (.text method) (.whole seed) = .ok (some (nearTable method seed))) :
    load nearFiles (.text "results") (near 1).request.experiment (.list (seeds.map .whole))
      (.list [.text method]) = .ok (Table.concat (seeds.map (nearTable method))) := by
  have place : nearFiles.place? "results" = some results := by decide +kernel
  have parts : pathParts "results" = ["results"] := by decide +kernel
  have wanted : (seeds.map Literal.whole).mapM (fun seed => do
      return (← (Literal.list [.text method]).toItems).map fun method => (method, seed)) =
      (.ok (seeds.map fun seed => [(.text method, .whole seed)]) :
        Except Error (List (List (Literal × Literal)))) := by
    rw [List.mapM_map]
    exact mapM_ok fun _ _ => rfl
  have pairs : (seeds.map fun seed => [(Literal.text method, Literal.whole seed)]).flatten =
      seeds.map fun seed => (.text method, .whole seed) := by
    rw [← List.flatMap_def, List.map_eq_flatMap]
  have tables : (seeds.map fun seed => some (nearTable method seed)).filterMap id =
      seeds.map (nearTable method) := by
    rw [List.filterMap_map]
    exact congrFun List.filterMap_eq_map _
  rw [load, place]
  dsimp only [Literal.toItems, Literal.items?]
  rw [ok_bind]
  dsimp only [Literal.toItems, Literal.items?] at wanted
  rw [wanted, ok_bind, pairs, parts, histories_near each, ok_bind, tables]
  simp [filled]

theorem history_cg : history? nearFiles ["results"] results (near 1).request.experiment
    (.text "cg") (.whole 1) = .ok (some (nearTable "cg" 1)) :=
  history_near (by decide +kernel) (by decide +kernel) (by decide +kernel)

theorem onlyHistories_near : OnlyHistories nearFiles results := by
  have names : nearFiles.namesIn results =
      [(near 1).fileName, (near 11).fileName, (near large).fileName] := by
    decide +kernel
  rw [OnlyHistories, names]
  simp only [List.forall_mem_cons, List.not_mem_nil, false_implies, implies_true, and_true]
  exact ⟨fun _ => ⟨_, rfl⟩, fun _ => ⟨_, rfl⟩, fun _ => ⟨_, rfl⟩⟩

theorem loads_requested_runs_near :
    (∀ r : RunName, Text.matchesPattern
      (pattern (near 1).request.experiment (.text "cg") (.whole 1)) r.fileName = true ↔
        r.Answers (near 1).request "cg" 1) ∧
    ∃ t, load nearFiles (.text "results") (near 1).request.experiment (.list [.whole 1])
        (.list [.text "cg"]) = .ok t ∧ t.rows.length = 1 ∧
      ∀ k < t.rows.length, Requested nearFiles results (near 1).request ["cg"] [1] t k := by
  have plain : ∀ method ∈ ["cg"], (near 1).request.Plain method := by
    rw [List.forall_mem_singleton]
    exact ⟨by decide, by decide, by decide⟩
  have loaded : load nearFiles (.text "results") (near 1).request.experiment
      (.list [.whole 1]) (.list [.text "cg"]) = .ok (Table.concat [nearTable "cg" 1]) :=
    load_near (List.cons_ne_nil 1 []) (List.forall_mem_singleton.mpr history_cg)
  obtain ⟨names, rows⟩ := loads_requested_runs plain [1]
  exact ⟨fun r => names "cg" List.mem_cons_self 1 r, _, loaded, rfl,
    rows nearFiles "results" results _ (by decide +kernel) onlyHistories_near loaded⟩

theorem star_and_mixed_seeds_mislead :
    (Text.matchesPattern (pattern (near 1).request.experiment (.text "*") (.whole 1))
        (near 1).fileName = true ∧ ¬ (near 1).Answers (near 1).request "*" 1) ∧
    (∃ t, load nearFiles (.text "results") (near 1).request.experiment (.list [.whole 1])
        (.list [.text "*"]) = .ok t ∧
      ¬ ∀ k < t.rows.length, Requested nearFiles results (near 1).request ["*"] [1] t k) ∧
    ∃ t, load nearFiles (.text "results") (near 1).request.experiment
        (.list [.whole 1, .whole large]) (.list [.text "cg"]) = .ok t ∧
      t.cellAt? "seed" 1 = some (.real (Float.ofInt (large - 1))) := by
  have name (r : RunName) : r.method.name ≠ "*" := by cases r.method <;> decide
  have star : load nearFiles (.text "results") (near 1).request.experiment (.list [.whole 1])
      (.list [.text "*"]) = .ok (Table.concat [nearTable "*" 1]) :=
    load_near (List.cons_ne_nil 1 []) <| List.forall_mem_singleton.mpr <|
      history_near (by decide +kernel) (by decide +kernel) (by decide +kernel)
  have mixed : load nearFiles (.text "results") (near 1).request.experiment
      (.list [.whole 1, .whole large]) (.list [.text "cg"]) =
        .ok (Table.concat [nearTable "cg" 1, nearTable "cg" large]) :=
    load_near (List.cons_ne_nil 1 [large]) <| List.forall_mem_cons.mpr
      ⟨history_cg, List.forall_mem_singleton.mpr <|
        history_near (by decide +kernel) (by decide +kernel) (by decide +kernel)⟩
  refine ⟨⟨by decide +kernel, fun answers => name _ answers.method⟩,
    ⟨_, star, fun rows => ?_⟩, _, mixed, rfl⟩
  obtain ⟨r, method, asked, seed, -, answers, -⟩ := rows 0 (by decide)
  obtain rfl := List.mem_singleton.mp asked
  exact name r answers.method

end Near

end Archive

end Passwise
