import Houdinny.Lib.Toml.Render

/-!
# Appending to an array of tables

A block for an element of an array of tables may be rendered after any document in
which the array, if there is one, is made up of such blocks (`ArrayOf`): the block
becomes its last element, and nothing else changes (`document_blocks`). That is so
for blocks of plain values; any other value is read as something else, if at all
(`exists_of_document_blocks`).

`Lines` is what must be known of the text before the blocks: that it ends a line, what was
read of it, and which tables make up the array so far. Then

* a block of plain values is read in three steps, its header (`exists_exec_element`), its
  pairs (`exists_execs_pairs`), and all of it (`exists_execs_block`), after each of which
  the array is known again;
* in a sequence of blocks with a value that is not plain, the first such value comes after
  plain ones, and the string that is read in its place is another one. It stays where it
  was put, whatever is read after it (`exists_of_run_pairs`).

In terms of values, `parse_blocks` and `plain_of_parse_blocks` are what programs use.
-/

namespace Toml

open Reader

variable {d : Draft} {k name s t : Text}

/-! ## Arrays of tables -/

/-- The entries of a table. -/
def Item.entries : Item → Entries
  | .table _ es => es
  | _ => []

/-- A table in which the tables `items` make up the array `name`, or there is no such
    array, and no items. -/
inductive ArrayOf (name : Text) : Item → List Item → Prop
  | absent {kind : Kind} {es : Entries} (h : name ∉ es.map Prod.fst) :
    ArrayOf name (.table kind es) []
  | there {kind : Kind} {l r : Entries} {items : List Item} (h : name ∉ l.map Prod.fst) :
    ArrayOf name (.table kind (l ++ (name, .array true items) :: r)) items

/-- All entries but that of the name are the same. -/
def SameElse (name : Text) (c c' : Item) : Prop :=
  ∀ j, j ≠ name → c'.entries.lookup j = c.entries.lookup j

/-- Entries that stay the same do so all along. -/
theorem SameElse.trans {c c' c'' : Item} (h : SameElse name c c') (h' : SameElse name c' c'') :
    SameElse name c c'' :=
  fun j hj => (h' j hj).trans (h j hj)

/-- A new entry. -/
theorem update_of_notMem {f : Option Item → Option Item} {es : Entries} (hk : k ∉ es.map Prod.fst) :
    update k f es = (f none).map fun c => es ++ [(k, c)] := by
  induction es with
  | nil => rfl
  | cons e es ih =>
    rw [List.map_cons, List.mem_cons, not_or] at hk
    rw [update, if_neg (Ne.symm hk.1), ih hk.2, Option.map_map]
    rfl

variable {root : Item} {items : List Item} {fs : Entries}

/-- The header of another element. -/
theorem exists_append (h : ArrayOf name root items) : ∃ root', Item.append name root = some root' ∧
    ArrayOf name root' (items ++ [.table .header []]) ∧ SameElse name root root' := by
  cases h with
  | @absent kind es hname =>
    refine ⟨.table kind (es ++ [(name, .array true [.table .header []])]), ?_, .there hname, ?_⟩
    · rw [Item.append, Item.entry, update_of_notMem hname]
      rfl
    · intro j hj
      rw [Item.entries, Item.entries, lookup_append_cons_of_ne hj, List.append_nil]
  | @there kind l r _ hname =>
    refine ⟨.table kind (l ++ (name, .array true (items ++ [.table .header []])) :: r), ?_,
      .there hname, ?_⟩
    · rw [Item.append, Item.entry, update_append hname]
      rfl
    · intro j hj
      rw [Item.entries, Item.entries, lookup_append_cons_of_ne hj, lookup_append_cons_of_ne hj]

/-- On the way through a table, the entry of the key is changed. -/
theorem Item.walk_table {op : Item → Option Item} {way : List Step} {kind : Kind} {es : Entries} :
    Item.walk op (.key k :: way) (.table kind es) =
      Item.entry k (fun c => c.bind (Item.walk op way)) (.table kind es) :=
  rfl

/-- A pair of the last element. -/
theorem exists_place (h : ArrayOf name root (items ++ [.table .header fs]))
    (hk : k ∉ fs.map Prod.fst) (x : Item) :
    ∃ root', Item.walk (Item.place x (.pair [] k)) [.key name] root = some root' ∧
      ArrayOf name root' (items ++ [.table .header (fs ++ [(k, x)])]) ∧
      SameElse name root root' := by
  generalize hall : items ++ [.table .header fs] = all at h
  cases h with
  | absent => exact absurd hall (by simp)
  | @there kind l r _ hname =>
    subst hall
    refine ⟨.table kind
      (l ++ (name, .array true (items ++ [.table .header (fs ++ [(k, x)])])) :: r), ?_,
      .there hname, ?_⟩
    · rw [Item.walk_table, Item.entry, update_append hname]
      change ((Item.enter (Item.nest (Item.add k x) []) (.array true _)).map _).map _ = _
      rw [Item.enter, onLast_concat]
      change ((((Item.entry k _ (.table .header fs)).map _).map _).map _).map _ = _
      rw [Item.entry, update_of_notMem hk]
      rfl
    · intro j hj
      rw [Item.entries, Item.entries, lookup_append_cons_of_ne hj, lookup_append_cons_of_ne hj]

/-- The path of a value in the last element. -/
theorem pathOf_arrayOf {c : Item} (h : ArrayOf name root (items ++ [c])) :
    root.pathOf (.pair [] k) [.key name] = [.key name, .idx items.length, .key k] := by
  generalize hall : items ++ [c] = all at h
  cases h with
  | absent => exact absurd hall (by simp)
  | @there kind l r _ hname =>
    subst hall
    have hchild : (Item.table kind (l ++ (name, .array true (items ++ [c])) :: r)).child? name =
        some (.array true (items ++ [c])) := lookup_append_cons hname _ r
    rw [Item.pathOf, hchild]
    simp [Item.pathOf, Item.inward]

/-! ## Blocks -/

/-- The item that a block is read as. -/
def blockItem (p : Pairs) : Item := .table .header (p.map fun kv => (kv.1, .value (.string kv.2)))

/-- A block has the value of its pairs. -/
theorem toValue_blockItem (p : Pairs) : (blockItem p).toValue = .table (tableOf p) := by
  rw [blockItem, Item.toValue, tableOf]
  congr 1
  induction p with
  | nil => rfl
  | cons kv p ih => rw [List.map_cons, entriesToTable, ih, List.map_cons, Item.toValue]

/-- A block with bare keys that are different from each other. -/
structure Block (p : Pairs) : Prop where
  bare : ∀ kv ∈ p, Bare kv.1
  nodup : (p.map Prod.fst).Nodup

variable {p : Pairs} {ps : List Pairs} {r : Reader}

/-- The header of a block: another element, which is filled. -/
theorem exists_exec_element (h : ArrayOf name d.root items) : ∃ d',
    d.exec (.element [] name) = some d' ∧ d'.way = [.key name] ∧
      ArrayOf name d'.root (items ++ [.table .header []]) ∧ SameElse name d.root d'.root := by
  obtain ⟨root', happend, harray, helse⟩ := exists_append h
  refine ⟨⟨root', [.key name], []⟩, ?_, rfl, harray, helse⟩
  rw [Draft.exec, Draft.header, Item.under, happend]
  rfl

/-- A pair of the element that is being filled. -/
theorem exists_exec_pair (h : ArrayOf name d.root (items ++ [.table .header fs]))
    (hway : d.way = [.key name]) (hk : k ∉ fs.map Prod.fst) (s : Text) : ∃ d',
    d.exec (.put (.pair [] k) (.string s)) = some d' ∧ d'.way = [.key name] ∧
      ArrayOf name d'.root (items ++ [.table .header (fs ++ [(k, .value (.string s))])]) ∧
      SameElse name d.root d'.root := by
  obtain ⟨root', hplace, harray, helse⟩ := exists_place h hk (.value (.string s))
  refine ⟨{ d with root := root' }, ?_, hway, harray, helse⟩
  rw [Draft.exec, Draft.put, hway, hplace]
  rfl

/-- All pairs of an element. -/
theorem exists_execs_pairs (h : ArrayOf name d.root (items ++ [.table .header fs]))
    (hway : d.way = [.key name]) (hp : (fs.map Prod.fst ++ p.map Prod.fst).Nodup) : ∃ d',
    execs d ((p.map fun kv => Line.pair kv.1 kv.2).flatMap Line.actions) = some d' ∧
      ArrayOf name d'.root (items ++
        [.table .header (fs ++ p.map fun kv => (kv.1, .value (.string kv.2)))]) ∧
      SameElse name d.root d'.root := by
  induction p generalizing d fs with
  | nil => exact ⟨d, rfl, by rwa [List.map_nil, List.append_nil], fun _ _ => rfl⟩
  | cons kv p ih =>
    have hk : kv.1 ∉ fs.map Prod.fst := fun hmem =>
      List.disjoint_of_nodup_append hp hmem List.mem_cons_self
    obtain ⟨d₁, hexec, hway₁, harray, helse⟩ := exists_exec_pair h hway hk kv.2
    obtain ⟨d', hexecs, harray', helse'⟩ := ih harray hway₁ (by simpa using hp)
    refine ⟨d', ?_, by simpa using harray', helse.trans helse'⟩
    rw [List.map_cons, List.flatMap_cons, Line.actions, List.singleton_append, execs_cons, hexec]
    exact hexecs

/-- A block becomes the last element. -/
theorem exists_execs_block (h : ArrayOf name d.root items) (hp : Block p) : ∃ d',
    execs d ((Doc.block name p).flatMap Line.actions) = some d' ∧
      ArrayOf name d'.root (items ++ [blockItem p]) ∧ SameElse name d.root d'.root := by
  obtain ⟨d₁, hexec, hway, harray, helse⟩ := exists_exec_element h
  obtain ⟨d', hexecs, harray', helse'⟩ := exists_execs_pairs harray hway hp.nodup
  refine ⟨d', ?_, harray', helse.trans helse'⟩
  rw [Doc.block, List.flatMap_cons, List.flatMap_cons, Line.actions, List.nil_append, Line.actions,
    List.singleton_append, execs_cons, hexec]
  exact hexecs

/-- The lines of a block are as they should be, but for the values of its pairs. -/
theorem shaped_of_mem_block (hname : Bare name) (hp : Block p) :
    ∀ l ∈ Doc.block name p, l.Shaped :=
  Doc.forall_mem_block.2 ⟨trivial, hname, hp.bare⟩

/-- So are the lines of many blocks. -/
theorem shaped_of_mem_blocks (hname : Bare name) (hps : ∀ p ∈ ps, Block p) :
    ∀ l ∈ ps.flatMap (Doc.block name), l.Shaped := by
  intro l hl
  obtain ⟨p, hp, hl⟩ := List.mem_flatMap.1 hl
  exact shaped_of_mem_block hname (hps p hp) l hl

/-- A block of plain values is read. -/
theorem exists_run_block (hname : Bare name) (h : ArrayOf name d.root items) (hp : Block p)
    (hplain : ∀ kv ∈ p, Plain kv.2) (t : Text) : ∃ d',
      Run.run Reader.step ⟨.line, d⟩ ((Doc.block name p).render ++ t) =
        Run.run Reader.step ⟨.line, d'⟩ t ∧
      ArrayOf name d'.root (items ++ [blockItem p]) ∧ SameElse name d.root d'.root := by
  obtain ⟨d', hexecs, harray, helse⟩ := exists_execs_block h hp
  refine ⟨d', ?_, harray, helse⟩
  have hlines := Doc.wellFormed_of_mem_block hname fun kv hkv => ⟨hp.bare kv hkv, hplain kv hkv⟩
  rw [run_render hlines, hexecs]
  rfl

/-- Blocks of plain values are read, and nothing else changes. -/
theorem exists_run_blocks (hname : Bare name) (h : ArrayOf name d.root items)
    (hps : ∀ p ∈ ps, Block p) (hplain : ∀ p ∈ ps, ∀ kv ∈ p, Plain kv.2) (t : Text) : ∃ d',
      Run.run Reader.step ⟨.line, d⟩ (Doc.render (ps.flatMap (Doc.block name)) ++ t) =
        Run.run Reader.step ⟨.line, d'⟩ t ∧
      ArrayOf name d'.root (items ++ ps.map blockItem) ∧ SameElse name d.root d'.root := by
  induction ps generalizing d items with
  | nil => exact ⟨d, rfl, by rwa [List.map_nil, List.append_nil], fun _ _ => rfl⟩
  | cons p ps ih =>
    rw [List.forall_mem_cons] at hps hplain
    obtain ⟨d₁, hrun, harray, helse⟩ := exists_run_block hname h hps.1 hplain.1
      (Doc.render (ps.flatMap (Doc.block name)) ++ t)
    obtain ⟨d', hrun', harray', helse'⟩ := ih harray hps.2 hplain.2
    refine ⟨d', ?_, by simpa using harray', helse.trans helse'⟩
    rw [List.flatMap_cons, Doc.render_append, List.append_assoc, hrun, hrun']

/-- If what is read after the header of a block has a value that is not plain, there
    is another string in its place. -/
theorem exists_of_run_pairs (h : ArrayOf name d.root (items ++ [.table .header fs]))
    (hway : d.way = [.key name]) (hp : (fs.map Prod.fst ++ p.map Prod.fst).Nodup)
    (hbare : ∀ kv ∈ p, Bare kv.1) (hplain : ¬∀ kv ∈ p, Plain kv.2) (hr : r.mode = .line)
    (ht : MarkFirst t) (hrun : Run.run Reader.step ⟨.line, d⟩
      (Doc.render (p.map fun kv => .pair kv.1 kv.2) ++ t) = some r) :
    ∃ kv ∈ p, ¬Plain kv.2 ∧ ∃ x ≠ kv.2,
      StringAt x [.key name, .idx items.length, .key kv.1] r.draft.root := by
  induction p generalizing d fs with
  | nil => exact absurd (fun kv hkv => absurd hkv List.not_mem_nil) hplain
  | cons kv p ih =>
    have hk : kv.1 ∉ fs.map Prod.fst := fun hmem =>
      List.disjoint_of_nodup_append hp hmem List.mem_cons_self
    rw [List.forall_mem_cons] at hbare hplain
    rw [List.map_cons, Doc.render_cons, List.append_assoc, List.cons_append] at hrun
    by_cases hkv : Plain kv.2
    · -- The pair is read, and the value is another one's.
      obtain ⟨d', hexec, hway', harray, -⟩ := exists_exec_pair h hway hk kv.2
      rw [run_line (l := .pair kv.1 kv.2) ⟨hbare.1, hkv⟩, Line.actions, execs_cons, hexec] at hrun
      obtain ⟨kv', hkv', hother⟩ := ih harray hway' (by simpa using hp) hbare.2
        (fun hall => hplain ⟨hkv, hall⟩) hrun
      exact ⟨kv', List.mem_cons_of_mem _ hkv', hother⟩
    · -- This value is none of the strings that can be read in its place.
      have hmark : MarkFirst (Doc.render (p.map fun kv => .pair kv.1 kv.2) ++ t) := by
        refine markFirst_render (fun l hl => ?_) ht
        obtain ⟨kv', hkv', rfl⟩ := List.mem_map.1 hl
        exact hbare.2 kv' hkv'
      rw [run_pair hbare.1] at hrun
      obtain ⟨x, rest, hx, hplain'⟩ := exists_of_run_quoted hr hmark.fenced hrun
      obtain ⟨e, hput, hrest⟩ := Option.bind_eq_some_iff.1 hx
      obtain ⟨e', hput', hdiff⟩ := Draft.differ_put hput x
      obtain rfl := Option.some.inj (hput.symm.trans hput')
      have hat : StringAt x [.key name, .idx items.length, .key kv.1]
          (⟨.after [], e⟩ : Reader).draft.root := by
        have hpath := pathOf_arrayOf (k := kv.1) h
        rw [← hway] at hpath
        exact hpath ▸ hdiff.1
      exact ⟨kv, List.mem_cons_self, hkv, x, fun heq => hkv (hplain' heq), hat.run hrest⟩

/-- If blocks with a value that is not plain are read, there is another string in its
    place. -/
theorem exists_of_run_blocks (hname : Bare name) (h : ArrayOf name d.root items)
    (hps : ∀ p ∈ ps, Block p) (hplain : ¬∀ p ∈ ps, ∀ kv ∈ p, Plain kv.2) (hr : r.mode = .line)
    (ht : MarkFirst t) (hrun : Run.run Reader.step ⟨.line, d⟩
      (Doc.render (ps.flatMap (Doc.block name)) ++ t) = some r) :
    ∃ i p, ps[i]? = some p ∧ ∃ kv ∈ p, ¬Plain kv.2 ∧ ∃ x ≠ kv.2,
      StringAt x [.key name, .idx (items.length + i), .key kv.1] r.draft.root := by
  induction ps generalizing d items with
  | nil => exact absurd (fun p hp => absurd hp List.not_mem_nil) hplain
  | cons p ps ih =>
    rw [List.forall_mem_cons] at hps hplain
    rw [List.flatMap_cons, Doc.render_append, List.append_assoc] at hrun
    -- The induction goes to the first block with a value that is not plain; the blocks before
    -- it are read as they were written.
    by_cases hp : ∀ kv ∈ p, Plain kv.2
    · obtain ⟨d', hblock, harray, -⟩ := exists_run_block hname h hps.1 hp
        (Doc.render (ps.flatMap (Doc.block name)) ++ t)
      rw [hblock] at hrun
      obtain ⟨i, p', hp', kv, hkv, hv, x, hx, hat⟩ := ih harray hps.2
        (fun hall => hplain ⟨hp, hall⟩) hrun
      refine ⟨i + 1, p', hp', kv, hkv, hv, x, hx, ?_⟩
      rwa [List.length_append, List.length_singleton, Nat.add_assoc, Nat.add_comm 1 i] at hat
    · obtain ⟨d', hexec, hway, harray, -⟩ := exists_exec_element h
      have hmark := markFirst_render (shaped_of_mem_blocks hname hps.2) ht
      rw [Doc.block, Doc.render_cons, Doc.render_cons, List.append_assoc, List.cons_append,
        run_line (l := .blank) trivial, List.append_assoc, List.cons_append] at hrun
      change Run.run Reader.step ⟨.line, d⟩ _ = _ at hrun
      rw [run_line (l := .element name) hname, Line.actions, execs_cons, hexec] at hrun
      exact ⟨0, p, rfl,
        exists_of_run_pairs harray hway hps.1.nodup hps.1.bare hp hr hmark hrun⟩

/-- Only a table has an array under a name. -/
theorem ArrayOf.exists_table (h : ArrayOf name root items) : ∃ kind es, root = .table kind es := by
  cases h with
  | absent | there => exact ⟨_, _, rfl⟩

/-- The array is what the table has under the name. -/
theorem ArrayOf.lookup (h : ArrayOf name root items) :
    (items = [] ∧ root.entries.lookup name = none) ∨
      root.entries.lookup name = some (.array true items) := by
  cases h with
  | absent hname =>
    refine .inl ⟨rfl, List.lookup_eq_none_iff.2 fun e he => ?_⟩
    rw [bne_iff_ne]
    rintro rfl
    exact hname (List.mem_map_of_mem he)
  | there hname => exact .inr (lookup_append_cons hname _ _)

/-- A table that has an array of tables under a name, or nothing. -/
theorem exists_arrayOf (kind : Kind) {es : Entries}
    (h : ∀ c, es.lookup name = some c → c.shape = .array true) :
    ∃ items, ArrayOf name (.table kind es) items := by
  rcases hlookup : es.lookup name with _ | c
  · refine ⟨[], .absent fun hmem => ?_⟩
    obtain ⟨e, he, rfl⟩ := List.mem_map.1 hmem
    exact absurd (List.lookup_eq_none_iff.1 hlookup e he) (by simp)
  · have hshape := h c hlookup
    obtain ⟨items, rfl⟩ : ∃ items, c = .array true items := by
      cases c with
      | value | table => exact absurd hshape (by simp [Item.shape])
      | array ofTables items => exact ⟨items, by rw [Shape.array.inj hshape]⟩
    obtain ⟨l, r, rfl, hl⟩ := List.lookup_eq_some_iff.1 hlookup
    refine ⟨items, .there fun hmem => ?_⟩
    obtain ⟨e, he, rfl⟩ := List.mem_map.1 hmem
    exact absurd (hl e he) (by simp)

/-! ## Documents -/

/-- Lines after which another may follow, where the tables `items` make up the array
    `name` of what has been read, or there is no such array. -/
structure Lines (name pre : Text) (root : Item) (items : List Item) : Prop where
  getLast? : pre.getLast? = some '\n'
  scan : ∃ way outer, scan pre = some ⟨.line, ⟨root, way, outer⟩⟩
  array : ArrayOf name root items

/-- A rendering ends in a newline. -/
theorem getLast?_render {doc : Doc} (h : doc ≠ []) : doc.render.getLast? = some '\n' := by
  obtain ⟨doc, l, rfl⟩ := List.eq_nil_or_concat doc |>.resolve_left h
  have hline : Doc.render [l] = l.render ++ ['\n'] := by
    rw [Doc.render_cons]
    rfl
  rw [List.concat_eq_append, Doc.render_append, hline, ← List.append_assoc, List.getLast?_concat]

/-- So does a rendering after other lines. -/
theorem Lines.getLast?_append {pre : Text} (h : Lines name pre root items) (doc : Doc) :
    (pre ++ doc.render).getLast? = some '\n' := by
  rcases eq_or_ne doc [] with rfl | hne
  · rw [show Doc.render [] = [] from rfl, List.append_nil, h.getLast?]
  · rw [List.getLast?_append, getLast?_render hne]
    rfl

/-- The lines of a document that begins with a comment. -/
theorem lines_render {doc : Doc} (hdoc : ∀ l ∈ (.comment s :: doc : Doc), l.WellFormed)
    (h : execs .new (doc.flatMap Line.actions) = some d) (harray : ArrayOf name d.root items) :
    Lines name (Doc.render (.comment s :: doc)) d.root items where
  getLast? := getLast?_render (List.cons_ne_nil _ _)
  scan := by
    have hrun := run_render (d := .new) (t := []) hdoc
    rw [List.append_nil, List.flatMap_cons, Line.actions, List.nil_append, h] at hrun
    have hstart : (Mode.start).step '#' = (Mode.line).step '#' := rfl
    refine ⟨d.way, d.outer, ?_⟩
    rw [Toml.scan]
    exact (run_congr hstart).trans hrun
  array := harray

/-- A comment after other lines. -/
theorem Lines.comment {pre : Text} (h : Lines name pre root items)
    (hs : ∀ c ∈ s, isControl c = false) :
    Lines name (pre ++ Doc.render [.comment s]) root items where
  getLast? := h.getLast?_append _
  scan := by
    obtain ⟨way, outer, hscan⟩ := h.scan
    have hline : ∀ l ∈ ([.comment s] : Doc), l.WellFormed := List.forall_mem_singleton.2 hs
    have hrun := run_render (d := ⟨root, way, outer⟩) (t := []) hline
    rw [List.append_nil] at hrun
    rw [Toml.scan] at hscan ⊢
    refine ⟨way, outer, ?_⟩
    rw [Run.run_append, hscan, Option.bind_some, hrun]
    rfl
  array := h.array

/-- What was read is still there in the document. -/
theorem Lines.stringAt {pre u x : Text} {path : List Seg} {es : Entries}
    (h : Lines name pre root items) (hx : StringAt x path root)
    (hes : document (pre ++ u) = some es) : ∃ kind, StringAt x path (.table kind es) := by
  obtain ⟨way, outer, hscan⟩ := h.scan
  obtain ⟨-, kind, way', outer', hrun⟩ := document_eq_some.1 hes
  rw [Toml.scan] at hscan hrun
  rw [List.append_assoc, Run.run_append, hscan, Option.bind_some] at hrun
  have hat : StringAt x path (⟨.line, ⟨root, way, outer⟩⟩ : Reader).draft.root := hx
  exact ⟨kind, hat.run hrun⟩

/-- Blocks of plain values after other lines make a document, in which nothing else has
    changed. -/
theorem document_blocks {pre : Text} (h : Lines name pre root items) (hname : Bare name)
    (hps : ∀ p ∈ ps, Block p) (hplain : ∀ p ∈ ps, ∀ kv ∈ p, Plain kv.2) : ∃ kind es,
      document (pre ++ Doc.render (ps.flatMap (Doc.block name))) = some es ∧
      ArrayOf name (.table kind es) (items ++ ps.map blockItem) ∧
      SameElse name root (.table kind es) := by
  obtain ⟨way, outer, hscan⟩ := h.scan
  obtain ⟨⟨root', way', outer'⟩, hrun, harray, helse⟩ := exists_run_blocks
    (d := ⟨root, way, outer⟩) hname h.array hps hplain ['\n']
  obtain ⟨kind, es, rfl⟩ := harray.exists_table
  refine ⟨kind, es, document_eq_some.2 ⟨?_, kind, way', outer', ?_⟩, harray, helse⟩
  · rw [h.getLast?_append]
    decide
  · rw [Toml.scan] at hscan ⊢
    rw [List.append_assoc, Run.run_append, hscan, Option.bind_some, hrun]
    rfl

/-- If blocks with a value that is not plain make a document, there is another string in
    its place. -/
theorem exists_of_document_blocks {pre : Text} {es : Entries} (h : Lines name pre root items)
    (hname : Bare name) (hps : ∀ p ∈ ps, Block p) (hplain : ¬∀ p ∈ ps, ∀ kv ∈ p, Plain kv.2)
    (hes : document (pre ++ Doc.render (ps.flatMap (Doc.block name))) = some es) :
    ∃ i p, ps[i]? = some p ∧ ∃ kv ∈ p, ¬Plain kv.2 ∧ ∃ x ≠ kv.2, ∃ kind,
      StringAt x [.key name, .idx (items.length + i), .key kv.1] (.table kind es) := by
  obtain ⟨way, outer, hscan⟩ := h.scan
  obtain ⟨-, kind, way', outer', hrun⟩ := document_eq_some.1 hes
  rw [Toml.scan] at hscan hrun
  rw [List.append_assoc, Run.run_append, hscan, Option.bind_some] at hrun
  obtain ⟨i, p, hp, kv, hkv, hv, x, hx, hat⟩ := exists_of_run_blocks hname h.array hps hplain rfl
    (markFirst_of_notMem (by decide)) hrun
  exact ⟨i, p, hp, kv, hkv, hv, x, hx, kind, hat⟩

/-! ## What blocks are read as -/

/-- The tables that make up the array are its elements. -/
theorem ArrayOf.elementsAt {kind : Kind} {es : Entries} (h : ArrayOf name (.table kind es) items) :
    elementsAt (entriesToTable es) name = items.map Item.toValue := by
  rcases h.lookup with ⟨rfl, hnone⟩ | harray
  · rw [Toml.elementsAt, lookup_entriesToTable, show es.lookup name = none from hnone]
    rfl
  · rw [Toml.elementsAt, lookup_entriesToTable,
      show es.lookup name = some (.array true items) from harray, Option.map_some, Item.toValue,
      itemsToValues_eq_map]

/-- Blocks of plain values are read as the tables of their pairs, after the elements that were
    there, and all else as before. -/
theorem parse_blocks {pre : Text} (h : Lines name pre root items) (hname : Bare name)
    (hps : ∀ p ∈ ps, Block p) (hplain : ∀ p ∈ ps, ∀ kv ∈ p, Plain kv.2) :
    ∃ tb, parse (pre ++ Doc.render (ps.flatMap (Doc.block name))) = some tb ∧
      elementsAt tb name = items.map Item.toValue ++ ps.map (fun p => .table (tableOf p)) ∧
      ∀ j, j ≠ name → tb.lookup j = (root.entries.lookup j).map Item.toValue := by
  obtain ⟨kind, es, hes, harray, helse⟩ := document_blocks h hname hps hplain
  refine ⟨entriesToTable es, by rw [parse, hes]; rfl, ?_, fun j hj => ?_⟩
  · rw [harray.elementsAt, List.map_append, List.map_map]
    exact congrArg _ (List.map_congr_left fun p _ => toValue_blockItem p)
  · rw [lookup_entriesToTable]
    exact congrArg _ (helse j hj)

/-- If blocks are read, and every string that needs escapes is found in its element as it was
    written, then there is none. -/
theorem plain_of_parse_blocks {pre : Text} {tb : Table} (h : Lines name pre root items)
    (hname : Bare name) (hps : ∀ p ∈ ps, Block p)
    (hparse : parse (pre ++ Doc.render (ps.flatMap (Doc.block name))) = some tb)
    (hfound : ∀ i p, ps[i]? = some p → ∃ element,
      (elementsAt tb name)[items.length + i]? = some (.table element) ∧
        ∀ kv ∈ p, ¬Plain kv.2 → stringOf element kv.1 = some kv.2) :
    ∀ p ∈ ps, ∀ kv ∈ p, Plain kv.2 := by
  obtain ⟨es, hes, rfl⟩ := Option.map_eq_some_iff.1 hparse
  by_contra hplain
  obtain ⟨i, p, hp, kv, hkv, hv, x, hx, kind, hat⟩ :=
    exists_of_document_blocks h hname hps hplain hes
  obtain ⟨element, helement, hstring⟩ := hat.toValue.exists_element
  obtain ⟨element', helement', hkept⟩ := hfound i p hp
  obtain rfl := Value.table.inj (Option.some.inj (helement.symm.trans helement'))
  exact hx (Option.some.inj (hstring.symm.trans (hkept kv hkv hv)))

end Toml
