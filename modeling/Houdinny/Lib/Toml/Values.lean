import Houdinny.Lib.Toml.Strings

/-!
# Strings in documents

Where the reader expects a value after a text, the value's path is determined by
that text (`valuePath`). If a plain string there makes a document, any other plain
string does, and the documents differ in that string (`document_replace`). A text
that is not plain makes no document, or one with another string at that path
(`exists_of_document`).

Both are about the entries of a document, which are marked by how they came about. In terms
of values they are `parse_replace` and `exists_of_parse`, which are what programs use, with
`Value.Differ` for values that differ in one string. How such a difference looks at the keys
and elements on the path is `Value.Differ.right` and `Value.Differ.exists_element`.
-/

namespace Toml

open Mode

variable {s t pre post : Text} {path : List Seg} {r r' : Reader}

/-- The readers differ in a string that was put somewhere. -/
def Reader.Differ (s t : Text) (path : List Seg) (r r' : Reader) : Prop :=
  r'.mode = r.mode ∧ Draft.Differ s t path r.draft r'.draft

/-- Many actions do the same on drafts that differ in a string. -/
theorem Draft.Differ.execs {d d' e : Draft} {as : List Action} (h : Draft.Differ s t path d d')
    (he : Reader.execs d as = some e) :
    ∃ e', Reader.execs d' as = some e' ∧ Draft.Differ s t path e e' := by
  induction as generalizing d d' with
  | nil => exact ⟨d', rfl, Option.some.inj he ▸ h⟩
  | cons a as ih =>
    rw [execs_cons] at he
    obtain ⟨x, hx, he⟩ := Option.bind_eq_some_iff.1 he
    obtain ⟨x', hx', hdiff⟩ := h.exec hx
    rw [execs_cons, hx']
    exact ih hdiff he

/-- Reading a character does not look at what has been put somewhere. -/
theorem Reader.Differ.step {c : Char} {q : Reader} (h : Reader.Differ s t path r r')
    (hq : r.step c = some q) : ∃ q', r'.step c = some q' ∧ Reader.Differ s t path q q' := by
  obtain ⟨⟨m, as⟩, hm, hq⟩ := Option.bind_eq_some_iff.1 hq
  obtain ⟨d, hd, rfl⟩ := Option.map_eq_some_iff.1 hq
  obtain ⟨d', hd', hdiff⟩ := h.2.execs hd
  refine ⟨⟨m, d'⟩, ?_, rfl, hdiff⟩
  rw [Reader.step, h.1, hm, Option.bind_some, hd']
  rfl

/-- What is read after a string does not depend on it. -/
theorem Reader.Differ.run {u : Text} {q : Reader} (h : Reader.Differ s t path r r')
    (hq : Run.run Reader.step r u = some q) :
    ∃ q', Run.run Reader.step r' u = some q' ∧ Reader.Differ s t path q q' := by
  induction u generalizing r r' with
  | nil => exact ⟨r', rfl, Option.some.inj hq ▸ h⟩
  | cons c u ih =>
    obtain ⟨x, hx, hq⟩ := Option.bind_eq_some_iff.1 hq
    obtain ⟨x', hx', hdiff⟩ := h.step hx
    rw [Run.run_cons, hx']
    exact ih hdiff hq

/-- There is a string at the path. -/
def StringAt (s : Text) (path : List Seg) (c : Item) : Prop := Differ s s path c c

/-- A string that was put somewhere stays there. -/
theorem StringAt.run {u : Text} (h : StringAt s path r.draft.root)
    (hr : Run.run Reader.step r u = some r') : StringAt s path r'.draft.root := by
  have hsame : Reader.Differ s s path r r := ⟨rfl, h, rfl, rfl⟩
  obtain ⟨q, hq, -, hdiff, -⟩ := hsame.run hr
  obtain rfl := Option.some.inj (hr.symm.trans hq)
  exact hdiff

/-- The path of the value that is expected after a text. -/
def valuePath (pre : Text) : Option (List Seg) :=
  match scan pre with
  | some ⟨.value _ slot, d⟩ => some (d.root.pathOf slot d.way)
  | _ => none

/-- Where a value is expected, the reader is at its start, and the path is that of its place. -/
theorem exists_of_valuePath (h : valuePath pre = some path) : ∃ outer slot d,
    scan pre = some ⟨.value outer slot, d⟩ ∧ d.root.pathOf slot d.way = path := by
  rw [valuePath] at h
  split at h
  · next outer slot d hscan => exact ⟨outer, slot, d, hscan, Option.some.inj h⟩
  · exact absurd h (by simp)

/-- A string that is put in a place, and another one. -/
theorem Draft.differ_put {d e : Draft} {slot : Slot}
    (h : d.exec (.put slot (.string s)) = some e) (t : Text) :
    ∃ e', d.exec (.put slot (.string t)) = some e' ∧
      Draft.Differ s t (d.root.pathOf slot d.way) e e' := by
  obtain ⟨r, hr, rfl⟩ := Option.map_eq_some_iff.1 h
  obtain ⟨r', hr', hdiff⟩ := Sets.walk slot d.way d.root s t r hr
  change d.root.walk (Item.place (.value (.string t)) slot) d.way = some r' at hr'
  refine ⟨{ d with root := r' }, ?_, hdiff, rfl, rfl⟩
  rw [Draft.exec, Draft.put, hr']
  rfl

/-- A document ends where a line may start. -/
theorem document_eq_some {es : Entries} : document s = some es ↔
    s.getLast? ≠ some '\r' ∧ ∃ kind way outer,
      scan (s ++ ['\n']) = some ⟨.line, ⟨.table kind es, way, outer⟩⟩ := by
  rw [document]
  split_ifs with hcr
  · exact iff_of_false (by simp) fun h => h.1 hcr
  · rw [and_iff_right hcr]
    constructor
    · intro h
      split at h
      · next kind es' way outer hscan =>
        obtain rfl := Option.some.inj h
        exact ⟨kind, way, outer, hscan⟩
      · exact absurd h (by simp)
    · rintro ⟨kind, way, outer, hscan⟩
      rw [hscan]

/-- What comes before a value, its text, and what comes after it. -/
theorem scan_append_quoted {outer : List Bracket} {slot : Slot} {d : Draft}
    (h : scan pre = some ⟨.value outer slot, d⟩) (s post : Text) :
    scan (pre ++ '"' :: (s ++ '"' :: post) ++ ['\n']) =
      Run.run Reader.step ⟨.value outer slot, d⟩ ('"' :: (s ++ '"' :: (post ++ ['\n']))) := by
  rw [scan, List.append_assoc, Run.run_append]
  rw [scan] at h
  rw [h]
  simp

/-- What ends the text is behind the closing quote. -/
theorem getLast?_quoted (s : Text) :
    (pre ++ '"' :: (s ++ '"' :: post)).getLast? = ('"' :: post).getLast? := by
  rw [show pre ++ '"' :: (s ++ '"' :: post) = (pre ++ '"' :: s) ++ '"' :: post by simp,
    List.getLast?_append_cons]

/-- A document with another plain string at the place of a plain one. -/
theorem document_replace {es : Entries} (hpath : valuePath pre = some path) (hs : Plain s)
    (hne : s ≠ []) (ht : Plain t) (h : document (pre ++ '"' :: (s ++ '"' :: post)) = some es) :
    ∃ es' kind, document (pre ++ '"' :: (t ++ '"' :: post)) = some es' ∧
      Toml.Differ s t path (.table kind es) (.table kind es') := by
  obtain ⟨outer, slot, d, hscan, rfl⟩ := exists_of_valuePath hpath
  rw [document_eq_some, scan_append_quoted hscan, getLast?_quoted,
    run_quoted_of_ne_nil hs hne] at h
  obtain ⟨hcr, kind, way, outer', hrun⟩ := h
  obtain ⟨d', hput, hrun⟩ := Option.bind_eq_some_iff.1 hrun
  -- The same is read after the other string.
  obtain ⟨e', hput', hdiff⟩ := d.differ_put hput t
  have hafter : Reader.Differ s t (d.root.pathOf slot d.way) ⟨.after outer, d'⟩
      ⟨.after outer, e'⟩ := ⟨rfl, hdiff⟩
  obtain ⟨⟨m, ⟨root, way', outer''⟩⟩, hrun', hm, hroot, -⟩ := hafter.run hrun
  obtain ⟨c, u, hcu, hc⟩ := (fenced_of_run_after hrun).exists_cons (by simp)
  obtain ⟨es', rfl⟩ : ∃ es', root = .table kind es' := by
    have hshape := hroot.shape_eq
    cases root with
    | table kind' es' => exact ⟨es', by rw [Shape.table.inj hshape]⟩
    | value | array => exact absurd hshape (by simp [Item.shape])
  refine ⟨es', kind, document_eq_some.2 ⟨?_, kind, way', outer'', ?_⟩, hroot⟩
  · rwa [getLast?_quoted]
  · rw [scan_append_quoted hscan, hcu, run_quoted ht hc, hput', Option.bind_some, ← hcu, hrun']
    rw [show m = .line from hm]

/-- A document with any other text at the place of a plain string: if it is one, it
    has a string at that path, which is the text only if the text is plain. -/
theorem exists_of_document {es es' : Entries} (hpath : valuePath pre = some path)
    (hs : Plain s) (hne : s ≠ []) (h : document (pre ++ '"' :: (s ++ '"' :: post)) = some es)
    (h' : document (pre ++ '"' :: (t ++ '"' :: post)) = some es') :
    ∃ x kind, StringAt x path (.table kind es') ∧ (x = t → Plain t) := by
  obtain ⟨outer, slot, d, hscan, rfl⟩ := exists_of_valuePath hpath
  rw [document_eq_some, scan_append_quoted hscan] at h h'
  obtain ⟨-, kind, way, outer', hrun⟩ := h
  obtain ⟨-, kind', way', outer'', hrun'⟩ := h'
  rw [run_quoted_of_ne_nil hs hne] at hrun
  obtain ⟨d', -, hrun⟩ := Option.bind_eq_some_iff.1 hrun
  obtain ⟨x, rest, hx, hplain⟩ := exists_of_run_quoted rfl (fenced_of_run_after hrun) hrun'
  obtain ⟨e, hput, hrest⟩ := Option.bind_eq_some_iff.1 hx
  obtain ⟨e', hput', hdiff⟩ := d.differ_put hput x
  obtain rfl := Option.some.inj (hput.symm.trans hput')
  have hat : StringAt x (d.root.pathOf slot d.way) (⟨.after outer, e⟩ : Reader).draft.root :=
    hdiff.1
  exact ⟨x, kind', hat.run hrest, hplain⟩

/-! ## Values -/

/-- The value under a key is that of its item. -/
theorem lookup_entriesToTable (es : Entries) (k : Text) :
    (entriesToTable es).lookup k = (es.lookup k).map Item.toValue := by
  induction es with
  | nil => rfl
  | cons e es ih =>
    rw [entriesToTable, List.lookup_cons, List.lookup_cons, ih]
    split <;> rfl

/-- The values of items are taken one by one. -/
theorem itemsToValues_eq_map (items : List Item) :
    itemsToValues items = items.map Item.toValue := by
  induction items with
  | nil => rfl
  | cons c items ih => rw [itemsToValues, ih, List.map_cons]

/-- The values differ in that at the path the one has the string `s`, and the
    other the string `t`. -/
inductive Value.Differ (s t : Text) : List Seg → Value → Value → Prop
  | here : Value.Differ s t [] (.string s) (.string t)
  | entry {k : Text} {path : List Seg} {tb tb' : Table} {v v' : Value}
    (hk : tb.lookup k = some v) (hk' : tb'.lookup k = some v')
    (hne : ∀ j, j ≠ k → tb'.lookup j = tb.lookup j) (h : Value.Differ s t path v v') :
    Value.Differ s t (.key k :: path) (.table tb) (.table tb')
  | item {path : List Seg} {l r : List Value} {v v' : Value} (h : Value.Differ s t path v v') :
    Value.Differ s t (.idx l.length :: path) (.array (l ++ v :: r)) (.array (l ++ v' :: r))

/-- The other one of two values that differ has its string at the path. -/
theorem Value.Differ.right {v v' : Value} (h : Value.Differ s t path v v') :
    Value.Differ t t path v' v' := by
  induction h with
  | here => exact .here
  | entry _ hk' _ _ ih => exact .entry hk' hk' (fun _ _ => rfl) ih
  | item _ ih => exact .item ih

/-- An entry is found under its key, if the key is new. -/
theorem lookup_append_cons {l : Entries} {k : Text} (hk : k ∉ l.map Prod.fst) (c : Item)
    (r : Entries) : (l ++ (k, c) :: r).lookup k = some c :=
  List.lookup_eq_some_iff.2 ⟨l, r, rfl, fun _ hp =>
    bne_iff_ne.2 fun h => hk (List.mem_map.2 ⟨_, hp, h.symm⟩)⟩

/-- Another key is found as if the entry were not there. -/
theorem lookup_append_cons_of_ne {l : Entries} {j k : Text} (hj : j ≠ k) (c : Item)
    (r : Entries) : (l ++ (k, c) :: r).lookup j = (l ++ r).lookup j := by
  rw [List.lookup_append, List.lookup_append, List.lookup_cons, beq_false_of_ne hj]

/-- The values of items that differ in a string differ in that string. -/
theorem Differ.toValue {c c' : Item} (h : Differ s t path c c') :
    Value.Differ s t path c.toValue c'.toValue := by
  induction h with
  | here => exact .here
  | @entry kind l r k c c' path hk h ih =>
    rw [Item.toValue, Item.toValue]
    have hlookup (x : Item) : (entriesToTable (l ++ (k, x) :: r)).lookup k = some x.toValue := by
      rw [lookup_entriesToTable, lookup_append_cons hk]
      rfl
    refine .entry (hlookup c) (hlookup c') (fun j hj => ?_) ih
    rw [lookup_entriesToTable, lookup_entriesToTable, lookup_append_cons_of_ne hj,
      lookup_append_cons_of_ne hj]
  | @item ofTables l r c c' path h ih =>
    rw [Item.toValue, Item.toValue, itemsToValues_eq_map, itemsToValues_eq_map, List.map_append,
      List.map_append, List.map_cons, List.map_cons, ← List.length_map Item.toValue]
    exact .item ih

/-- The elements of the array under a key. -/
def elementsAt (t : Table) (key : Text) : List Value :=
  match t.lookup key with
  | some (.array vs) => vs
  | _ => []

/-- The string under a key. -/
def stringOf (t : Table) (key : Text) : Option Text :=
  match t.lookup key with
  | some (.string s) => some s
  | _ => none

/-- The strings of a block are its pairs. -/
theorem stringOf_tableOf (p : Pairs) (key : Text) : stringOf (tableOf p) key = p.lookup key := by
  induction p with
  | nil => rfl
  | cons kv p ih =>
    rw [stringOf, tableOf] at ih ⊢
    rw [List.map_cons, List.lookup_cons, List.lookup_cons]
    cases key == kv.1 with
    | true => rfl
    | false => exact ih

/-- A string at the path of a field of an element is found there. -/
theorem Value.Differ.exists_element {tb : Table} {v : Value} {name key : Text} {i : ℕ}
    (h : Value.Differ s t [.key name, .idx i, .key key] (.table tb) v) :
    ∃ element, (elementsAt tb name)[i]? = some (.table element) ∧
      stringOf element key = some s := by
  obtain _ | ⟨hname, -, -, harray⟩ := h
  generalize hidx : Seg.idx i = seg at harray
  cases harray with
  | entry => exact absurd hidx (by simp)
  | @item _ l r v v' hitem =>
    obtain rfl := Seg.idx.inj hidx
    obtain _ | ⟨hkey, -, -, ⟨⟩⟩ := hitem
    refine ⟨_, ?_, by rw [stringOf, hkey]⟩
    rw [elementsAt, hname]
    change (l ++ _ :: r)[l.length]? = _
    rw [List.getElem?_append_right le_rfl, Nat.sub_self]
    rfl

/-- A value with another plain string at the place of a plain one. -/
theorem parse_replace {tb : Table} (hpath : valuePath pre = some path) (hs : Plain s)
    (hne : s ≠ []) (ht : Plain t) (h : parse (pre ++ '"' :: (s ++ '"' :: post)) = some tb) :
    ∃ tb', parse (pre ++ '"' :: (t ++ '"' :: post)) = some tb' ∧
      Value.Differ s t path (.table tb) (.table tb') := by
  obtain ⟨es, hes, rfl⟩ := Option.map_eq_some_iff.1 h
  obtain ⟨es', kind, hes', hdiff⟩ := document_replace hpath hs hne ht hes
  refine ⟨entriesToTable es', ?_, hdiff.toValue⟩
  rw [parse, hes']
  rfl

/-- A value with any other text at the place of a plain string. -/
theorem exists_of_parse {tb tb' : Table} (hpath : valuePath pre = some path) (hs : Plain s)
    (hne : s ≠ []) (h : parse (pre ++ '"' :: (s ++ '"' :: post)) = some tb)
    (h' : parse (pre ++ '"' :: (t ++ '"' :: post)) = some tb') :
    ∃ x, Value.Differ x x path (.table tb') (.table tb') ∧ (x = t → Plain t) := by
  obtain ⟨es, hes, rfl⟩ := Option.map_eq_some_iff.1 h
  obtain ⟨es', hes', rfl⟩ := Option.map_eq_some_iff.1 h'
  obtain ⟨x, kind, hat, hplain⟩ := exists_of_document hpath hs hne hes hes'
  exact ⟨x, hat.toValue, hplain⟩

end Toml
