import Houdinny.Lib.Toml

/-!
# Documents under construction

A document is built up statement by statement: a header makes a table, or
another element of an array of tables; a pair puts a value into the table of the
header before it; and a value in brackets or braces is opened, filled, and
closed (`Action`). What may be put where depends on how what is there came about
(`Kind`), so the tables of a document under construction are marked by it
(`Item`). An action that TOML does not allow is undefined (`Draft.exec`).

No action looks at the strings that are there: on two documents that differ in
one string it does the same, and the results differ in that string
(`Draft.Differ.exec`). So what was put somewhere stays there.

All actions are put together from a few operations that change one part of an item and leave
the rest (`update`, `onLast`, `entry`, `enter`, `inLast`), and so are the proofs:

* `Blind op` says that `op` looks at no string. There is one lemma for each operation, and
  `Blind.walk`, `Blind.nest` and `Blind.under` are those for the recursive ones.
* `Sets op path c` says that `op` puts its string at a path of `c`, whatever the string. The
  path of a place is computed in advance (`pathOf`), and `Sets.walk` is the lemma for it.
-/

namespace Toml

/-- How a table came about: by a header of its own, by the header of a table in
    it, by a dotted key, or in braces. -/
inductive Kind
  | header
  | implicit
  | dotted
  | braces
  deriving DecidableEq

/-- A value in a document under construction. Arrays are written in brackets, or
    made up of the tables of their headers. -/
inductive Item
  | value (v : Value)
  | table (kind : Kind) (entries : List (Text × Item))
  | array (ofTables : Bool) (items : List Item)

/-- The entries of a table under construction. -/
abbrev Entries := List (Text × Item)

mutual

/-- The value that was constructed. -/
def Item.toValue : Item → Value
  | .value v => v
  | .table _ es => .table (entriesToTable es)
  | .array _ items => .array (itemsToValues items)

/-- The values of the entries of a table. -/
def entriesToTable : List (Text × Item) → Table
  | [] => []
  | e :: es => (e.1, e.2.toValue) :: entriesToTable es

/-- The values of the items of an array. -/
def itemsToValues : List Item → List Value
  | [] => []
  | c :: items => c.toValue :: itemsToValues items

end

/-- What an item is, whatever is in it. -/
inductive Shape
  | value
  | table (kind : Kind)
  | array (ofTables : Bool)
  deriving DecidableEq

/-- The shape of an item. -/
def Item.shape : Item → Shape
  | .value _ => .value
  | .table kind _ => .table kind
  | .array ofTables _ => .array ofTables

/-! ## Actions -/

/-- The entries with that of the key `k` changed, or added. -/
def update (k : Text) (f : Option Item → Option Item) : Entries → Option Entries
  | [] => (f none).map fun c => [(k, c)]
  | e :: es =>
    if e.1 = k then (f (some e.2)).map fun c => (k, c) :: es
    else (update k f es).map (e :: ·)

/-- The items with the last one changed. -/
def onLast (op : Item → Option Item) : List Item → Option (List Item)
  | [] => none
  | [c] => (op c).map ([·])
  | c :: c' :: items => (onLast op (c' :: items)).map (c :: ·)

/-- A step of the way to an item. -/
inductive Step
  | key (k : Text)
  | last
  deriving DecidableEq

/-- Where a value is put: at the end of an array, or under a dotted key. -/
inductive Slot
  | item
  | pair (ks : List Text) (k : Text)
  deriving DecidableEq

/-- The way from an open table or array to the value that is put there. -/
def Slot.steps : Slot → List Step
  | item => [.last]
  | pair ks k => (ks ++ [k]).map .key

namespace Item

/-- A table with one entry changed, or added. -/
def entry (k : Text) (f : Option Item → Option Item) : Item → Option Item
  | .table kind es => (update k f es).map (.table kind)
  | _ => none

/-- An array of tables stands for the last of them. -/
def enter (op : Item → Option Item) : Item → Option Item
  | .array true items => (onLast op items).map (.array true)
  | c => op c

/-- An array in brackets with its last item changed. -/
def inLast (op : Item → Option Item) : Item → Option Item
  | .array false items => (onLast op items).map (.array false)
  | _ => none

/-- The change of what is at the end of the way. -/
def walk (op : Item → Option Item) : List Step → Item → Option Item
  | [] => op
  | .key k :: way => enter (entry k fun c => c.bind (walk op way))
  | .last :: way => inLast (walk op way)

/-- The change of the table of a dotted key. Dotted keys make tables, but add
    nothing to tables that have a header. -/
def nest (op : Item → Option Item) : List Text → Item → Option Item
  | [] => op
  | k :: ks => entry k fun
    | none => nest op ks (.table .dotted [])
    | some c =>
      if c.shape = .table .dotted ∨ c.shape = .table .implicit ∧ ks ≠ [] then nest op ks c else none

/-- A new entry. -/
def add (k : Text) (x : Item) : Item → Option Item :=
  entry k fun
    | none => some x
    | some _ => none

/-- A new item. -/
def push (x : Item) : Item → Option Item
  | .array false items => some (.array false (items ++ [x]))
  | _ => none

/-- A value is put where the slot says. -/
def place (x : Item) : Slot → Item → Option Item
  | .item => push x
  | .pair ks k => enter (nest (add k x) ks)

/-- The change of the table that a header is about. Headers make the tables that
    it is in, and add nothing to values. -/
def under (op : Item → Option Item) : List Text → Item → Option Item
  | [] => op
  | k :: ks => entry k fun
    | none => under op ks (.table .implicit [])
    | some c =>
      if c.shape = .value ∨ c.shape = .table .braces ∨ c.shape = .array false then none
      else enter (under op ks) c

/-- The table of a header, of which there may be tables already. -/
def define (k : Text) : Item → Option Item :=
  entry k fun
    | none => some (.table .header [])
    | some (.table .implicit es) => some (.table .header es)
    | some _ => none

/-- Another element of an array of tables. -/
def append (k : Text) : Item → Option Item :=
  entry k fun
    | none => some (.array true [.table .header []])
    | some (.array true items) => some (.array true (items ++ [.table .header []]))
    | some _ => none

end Item

/-- What the parts of a document do. -/
inductive Action
  | put (slot : Slot) (v : Value)
  | openArray (slot : Slot)
  | openTable (slot : Slot)
  | close
  | table (ks : List Text) (k : Text)
  | element (ks : List Text) (k : Text)

/-- A document under construction. -/
structure Draft where
  root : Item
  /-- The way to the table or array that is being filled. -/
  way : List Step
  /-- The ways to those that it is in, as far as they are being filled as well. -/
  outer : List (List Step)

namespace Draft

/-- The empty document. -/
def new : Draft := ⟨.table .header [], [], []⟩

/-- Something is put where it belongs. -/
def put (d : Draft) (slot : Slot) (x : Item) : Option Draft :=
  (d.root.walk (Item.place x slot) d.way).map fun r => { d with root := r }

/-- What was put somewhere is filled. -/
def fill (d : Draft) (slot : Slot) : Draft := ⟨d.root, d.way ++ slot.steps, d.way :: d.outer⟩

/-- A header: the table it is about is filled. -/
def header (d : Draft) (op : Item → Option Item) (ks : List Text) (k : Text) : Option Draft :=
  (d.root.under op ks).map fun r => ⟨r, (ks ++ [k]).map .key, []⟩

/-- What an action does, if it is allowed. -/
def exec (d : Draft) : Action → Option Draft
  | .put slot v => d.put slot (.value v)
  | .openArray slot => (d.put slot (.array false [])).map (·.fill slot)
  | .openTable slot => (d.put slot (.table .braces [])).map (·.fill slot)
  | .close =>
    match d.outer with
    | way :: outer => some ⟨d.root, way, outer⟩
    | [] => none
  | .table ks k => d.header (Item.define k) ks k
  | .element ks k => d.header (Item.append k) ks k

end Draft

/-! ## Strings at their places -/

/-- A segment of the path of a value. -/
inductive Seg
  | key (k : Text)
  | idx (n : ℕ)
  deriving DecidableEq

/-- The items differ in that at the path the one has the string `s`, and the
    other the string `t`. -/
inductive Differ (s t : Text) : List Seg → Item → Item → Prop
  | here : Differ s t [] (.value (.string s)) (.value (.string t))
  | entry {kind : Kind} {l r : Entries} {k : Text} {c c' : Item} {path : List Seg}
    (hk : k ∉ l.map Prod.fst) (h : Differ s t path c c') :
    Differ s t (.key k :: path) (.table kind (l ++ (k, c) :: r)) (.table kind (l ++ (k, c') :: r))
  | item {ofTables : Bool} {l r : List Item} {c c' : Item} {path : List Seg}
    (h : Differ s t path c c') : Differ s t (.idx l.length :: path)
      (.array ofTables (l ++ c :: r)) (.array ofTables (l ++ c' :: r))

/-- A change that looks at no string. -/
def Blind (op : Item → Option Item) : Prop :=
  ∀ ⦃s t path c c' d⦄, Differ s t path c c' → op c = some d →
    ∃ d', op c' = some d' ∧ Differ s t path d d'

variable {s t : Text} {path : List Seg} {c c' : Item} {op : Item → Option Item}

theorem Differ.shape_eq (h : Differ s t path c c') : c.shape = c'.shape := by
  cases h <;> rfl

/-! ### Changes -/

/-- The entry of the key is changed. -/
theorem update_append {k : Text} {f : Option Item → Option Item} {l : Entries}
    (hk : k ∉ l.map Prod.fst) (c : Item) (r : Entries) :
    update k f (l ++ (k, c) :: r) = (f (some c)).map fun c' => l ++ (k, c') :: r := by
  induction l with
  | nil => exact if_pos rfl
  | cons e l ih =>
    rw [List.map_cons, List.mem_cons, not_or] at hk
    rw [List.cons_append, update, if_neg (Ne.symm hk.1), ih hk.2, Option.map_map]
    rfl

/-- Another entry is changed. -/
theorem update_append_of_ne {k j : Text} {f : Option Item → Option Item} {l r es : Entries}
    (hne : k ≠ j) (hk : k ∉ l.map Prod.fst) (h : update j f (l ++ (k, c) :: r) = some es) :
    ∃ l' r', k ∉ l'.map Prod.fst ∧
      ∀ c', update j f (l ++ (k, c') :: r) = some (l' ++ (k, c') :: r') := by
  induction l generalizing es with
  | nil =>
    rw [List.nil_append, update, if_neg hne, Option.map_eq_some_iff] at h
    obtain ⟨r', hr, -⟩ := h
    refine ⟨[], r', List.not_mem_nil, fun c' => ?_⟩
    rw [List.nil_append, update, if_neg hne, hr]
    rfl
  | cons e l ih =>
    rw [List.map_cons, List.mem_cons, not_or] at hk
    rw [List.cons_append, update] at h
    split_ifs at h with hj
    · -- The update stops before the entry of `k` is reached.
      obtain ⟨x, hx, -⟩ := Option.map_eq_some_iff.1 h
      refine ⟨(j, x) :: l, r, ?_, fun c' => ?_⟩
      · rw [List.map_cons, List.mem_cons, not_or]
        exact ⟨hne, hk.2⟩
      · rw [List.cons_append, update, if_pos hj, hx]
        rfl
    · obtain ⟨es', hes, -⟩ := Option.map_eq_some_iff.1 h
      obtain ⟨l', r', hl', hall⟩ := ih hk.2 hes
      refine ⟨e :: l', r', ?_, fun c' => ?_⟩
      · rw [List.map_cons, List.mem_cons, not_or]
        exact ⟨hk.1, hl'⟩
      · rw [List.cons_append, update, if_neg hj, hall c']
        rfl

/-- The last item is changed. -/
theorem onLast_concat (l : List Item) (c : Item) :
    onLast op (l ++ [c]) = (op c).map (l ++ [·]) := by
  induction l with
  | nil => rfl
  | cons e l ih =>
    obtain ⟨e', l', hl⟩ := List.exists_cons_of_ne_nil (List.append_ne_nil_of_right_ne_nil l
      (List.cons_ne_nil c []))
    rw [List.cons_append, hl, onLast, ← hl, ih, Option.map_map]
    rfl

/-- An item after which there are others is not changed. -/
theorem onLast_append (l : List Item) (c : Item) {r : List Item} (hr : r ≠ []) :
    onLast op (l ++ c :: r) = (onLast op r).map (l ++ c :: ·) := by
  induction l with
  | nil =>
    obtain ⟨e, r', rfl⟩ := List.exists_cons_of_ne_nil hr
    rfl
  | cons e l ih =>
    obtain ⟨e', l', hl⟩ := List.exists_cons_of_ne_nil (List.append_ne_nil_of_right_ne_nil l
      (List.cons_ne_nil c r))
    rw [List.cons_append, hl, onLast, ← hl, ih, Option.map_map]
    rfl

/-- What is done to the last item does not look at strings. -/
theorem Blind.onLast (hop : Blind op) (ofTables : Bool) {l r items : List Item} {n : ℕ}
    (hn : n = l.length) (h : Differ s t path c c') (hs : onLast op (l ++ c :: r) = some items) :
    ∃ items', Toml.onLast op (l ++ c' :: r) = some items' ∧
      Differ s t (.idx n :: path) (.array ofTables items) (.array ofTables items') := by
  subst hn
  by_cases hr : r = []
  · subst hr
    rw [onLast_concat, Option.map_eq_some_iff] at hs
    obtain ⟨d, hd, rfl⟩ := hs
    obtain ⟨d', hd', hdiff⟩ := hop h hd
    refine ⟨l ++ [d'], ?_, .item hdiff⟩
    rw [onLast_concat, hd']
    rfl
  · rw [onLast_append l c hr, Option.map_eq_some_iff] at hs
    obtain ⟨r', hr', rfl⟩ := hs
    refine ⟨l ++ c' :: r', ?_, .item h⟩
    rw [onLast_append l c' hr, hr']
    rfl

/-- An entry is changed blindly, if its item is. -/
theorem Blind.entry {k : Text} {f : Option Item → Option Item} (hf : Blind fun c => f (some c)) :
    Blind (Item.entry k f) := by
  intro s t path c c' d h hd
  cases h with
  | here => exact absurd hd (by simp [Item.entry])
  | item => exact absurd hd (by simp [Item.entry])
  | @entry kind l r j c c' path hj h =>
    obtain ⟨es, hes, rfl⟩ := Option.map_eq_some_iff.1 hd
    by_cases hk : j = k
    · subst hk
      rw [update_append hj, Option.map_eq_some_iff] at hes
      obtain ⟨x, hx, rfl⟩ := hes
      obtain ⟨x', hx' : f (some c') = some x', hdiff⟩ := hf h hx
      refine ⟨.table kind (l ++ (j, x') :: r), ?_, .entry hj hdiff⟩
      rw [Item.entry, update_append hj, hx']
      rfl
    · obtain ⟨l', r', hl', hall⟩ := update_append_of_ne hk hj hes
      obtain rfl := Option.some.inj (hes.symm.trans (hall c))
      refine ⟨.table kind (l' ++ (j, c') :: r'), ?_, .entry hl' h⟩
      rw [Item.entry, hall c']
      rfl

/-- So is the table that an array of tables stands for, -/
theorem Blind.enter (hop : Blind op) : Blind (Item.enter op) := by
  intro s t path c c' d h hd
  cases h with
  | here => exact hop .here hd
  | entry hk h => exact hop (.entry hk h) hd
  | @item ofTables l r c c' path h =>
    cases ofTables with
    | false => exact hop (.item h) hd
    | true =>
      obtain ⟨items, hitems, rfl⟩ := Option.map_eq_some_iff.1 hd
      obtain ⟨items', hitems', hdiff⟩ := hop.onLast true rfl h hitems
      exact ⟨_, by rw [Item.enter, hitems']; rfl, hdiff⟩

/-- and the last item of an array. -/
theorem Blind.inLast (hop : Blind op) : Blind (Item.inLast op) := by
  intro s t path c c' d h hd
  cases h with
  | here => exact absurd hd (by simp [Item.inLast])
  | entry => exact absurd hd (by simp [Item.inLast])
  | @item ofTables l r c c' path h =>
    cases ofTables with
    | true => exact absurd hd (by simp [Item.inLast])
    | false =>
      obtain ⟨items, hitems, rfl⟩ := Option.map_eq_some_iff.1 hd
      obtain ⟨items', hitems', hdiff⟩ := hop.onLast false rfl h hitems
      exact ⟨_, by rw [Item.inLast, hitems']; rfl, hdiff⟩

/-- Looking at what an item is, is not looking at strings. -/
theorem Blind.guard (p : Shape → Prop) [DecidablePred p] (hop : Blind op) :
    Blind fun c => if p c.shape then op c else none := by
  intro s t path c c' d h hd
  dsimp only at hd ⊢
  rw [← h.shape_eq]
  split_ifs at hd ⊢ with hp
  exact hop h hd

/-- What changes nothing looks at nothing. -/
theorem Blind.never : Blind fun _ => none :=
  fun _ _ _ _ _ _ _ hd => absurd hd (by simp)

/-- A change at the end of a way is as blind as the change itself. -/
theorem Blind.walk (hop : Blind op) : ∀ way, Blind (Item.walk op way)
  | [] => hop
  | .key _ :: way => .enter (.entry (Blind.walk hop way))
  | .last :: way => .inLast (Blind.walk hop way)

/-- So is one in the table of a dotted key, -/
theorem Blind.nest (hop : Blind op) : ∀ ks, Blind (Item.nest op ks)
  | [] => hop
  | _ :: ks => .entry (.guard (fun s => s = .table .dotted ∨ s = .table .implicit ∧ ks ≠ [])
      (Blind.nest hop ks))

/-- and one under the tables of a header. -/
theorem Blind.under (hop : Blind op) : ∀ ks, Blind (Item.under op ks)
  | [] => hop
  | _ :: ks => .entry fun s t path c c' d h hd => by
      dsimp only at hd ⊢
      rw [← h.shape_eq]
      split_ifs at hd ⊢
      exact Blind.enter (Blind.under hop ks) h hd

/-- A new entry looks at no string. -/
theorem Blind.add (k : Text) (x : Item) : Blind (Item.add k x) := .entry .never

/-- Nor does a new item. -/
theorem Blind.push (x : Item) : Blind (Item.push x) := by
  intro s t path c c' d h hd
  cases h with
  | here => exact absurd hd (by simp [Item.push])
  | entry => exact absurd hd (by simp [Item.push])
  | @item ofTables l r c c' path h =>
    cases ofTables with
    | true => exact absurd hd (by simp [Item.push])
    | false =>
      obtain rfl := Option.some.inj hd
      refine ⟨_, rfl, ?_⟩
      rw [List.append_assoc, List.append_assoc]
      exact .item h

/-- Nor does putting a value in a slot. -/
theorem Blind.place (x : Item) : ∀ slot, Blind (Item.place x slot)
  | .item => .push x
  | .pair ks k => .enter (.nest (.add k x) ks)

/-- Nor does the header of a table, -/
theorem Blind.define (k : Text) : Blind (Item.define k) := by
  refine .entry fun s t path c c' d h hd => ?_
  cases h with
  | here => exact absurd hd (by simp)
  | item => exact absurd hd (by simp)
  | @entry kind l r j c c' path hj h =>
    cases kind with
    | implicit =>
      obtain rfl := Option.some.inj hd
      exact ⟨_, rfl, .entry hj h⟩
    | header | dotted | braces => exact absurd hd (by simp)

/-- nor that of an element. -/
theorem Blind.append (k : Text) : Blind (Item.append k) := by
  refine .entry fun s t path c c' d h hd => ?_
  cases h with
  | here => exact absurd hd (by simp)
  | entry => exact absurd hd (by simp)
  | @item ofTables l r c c' path h =>
    cases ofTables with
    | false => exact absurd hd (by simp)
    | true =>
      obtain rfl := Option.some.inj hd
      refine ⟨_, rfl, ?_⟩
      rw [List.append_assoc, List.append_assoc]
      exact .item h

namespace Draft

variable {d d' e : Draft}

/-- The drafts differ in the string at the path. -/
def Differ (s t : Text) (path : List Seg) (d d' : Draft) : Prop :=
  Toml.Differ s t path d.root d'.root ∧ d'.way = d.way ∧ d'.outer = d.outer

/-- What is put in its place is put there in both drafts. -/
theorem Differ.put {slot : Slot} {x : Item} (h : Differ s t path d d')
    (he : d.put slot x = some e) : ∃ e', d'.put slot x = some e' ∧ Differ s t path e e' := by
  obtain ⟨r, hr, rfl⟩ := Option.map_eq_some_iff.1 he
  obtain ⟨r', hr', hdiff⟩ := Blind.walk (.place x slot) d.way h.1 hr
  refine ⟨{ d' with root := r' }, ?_, hdiff, h.2.1, h.2.2⟩
  rw [Draft.put, h.2.1, hr']
  rfl

/-- Both drafts are filled in the same place. -/
theorem Differ.fill (h : Differ s t path d d') (slot : Slot) :
    Differ s t path (d.fill slot) (d'.fill slot) := by
  refine ⟨h.1, ?_, ?_⟩
  · rw [Draft.fill, Draft.fill, h.2.1]
  · rw [Draft.fill, Draft.fill, h.2.1, h.2.2]

/-- A header does the same on both. -/
theorem Differ.header {ks : List Text} {k : Text} (hop : Blind op) (h : Differ s t path d d')
    (he : d.header op ks k = some e) :
    ∃ e', d'.header op ks k = some e' ∧ Differ s t path e e' := by
  obtain ⟨r, hr, rfl⟩ := Option.map_eq_some_iff.1 he
  obtain ⟨r', hr', hdiff⟩ := Blind.under hop ks h.1 hr
  refine ⟨⟨r', (ks ++ [k]).map .key, []⟩, ?_, hdiff, rfl, rfl⟩
  rw [Draft.header, hr']
  rfl

/-- An action does the same on drafts that differ in a string. -/
theorem Differ.exec {a : Action} (h : Differ s t path d d') (he : d.exec a = some e) :
    ∃ e', d'.exec a = some e' ∧ Differ s t path e e' := by
  cases a with
  | put slot v => exact h.put he
  | openArray slot | openTable slot =>
    obtain ⟨r, hr, rfl⟩ := Option.map_eq_some_iff.1 he
    obtain ⟨r', hr', hdiff⟩ := h.put hr
    refine ⟨r'.fill slot, ?_, hdiff.fill slot⟩
    rw [Draft.exec, hr']
    rfl
  | close =>
    rw [Draft.exec] at he ⊢
    rw [h.2.2]
    split at he
    · obtain rfl := Option.some.inj he
      exact ⟨_, rfl, h.1, rfl, rfl⟩
    · exact absurd he (by simp)
  | table ks k => exact h.header (.define k) he
  | element ks k => exact h.header (.append k) he

end Draft

/-! ### The path of what is put somewhere -/

namespace Item

/-- What an array of tables stands for. -/
def inner? : Item → Option Item
  | .array true items => items.getLast?
  | c => some c

/-- The path to it. -/
def inward : Item → List Seg
  | .array true items => [.idx (items.length - 1)]
  | _ => []

/-- The entry of a key. -/
def child? (k : Text) (c : Item) : Option Item :=
  match c.inner? with
  | some (.table _ es) => es.lookup k
  | _ => none

/-- The items of an array. -/
def items : Item → List Item
  | .array _ items => items
  | _ => []

/-- The path of what is put at the end of the way. -/
def pathOf (slot : Slot) : List Step → Item → List Seg
  | [], c =>
    match slot with
    | .item => [.idx c.items.length]
    | .pair ks k => c.inward ++ (ks ++ [k]).map .key
  | .key k :: way, c => c.inward ++ .key k :: (c.child? k).elim [] (pathOf slot way)
  | .last :: way, c => .idx (c.items.length - 1) :: c.items.getLast?.elim [] (pathOf slot way)

end Item

/-- A change that puts a string at the path. -/
def Sets (op : Text → Item → Option Item) (path : List Seg) (c : Item) : Prop :=
  ∀ s t d, op s c = some d → ∃ d', op t c = some d' ∧ Differ s t path d d'

/-- An entry is set: its key is new, or there is an item that is changed. -/
theorem Sets.entry {k : Text} {f : Text → Option Item → Option Item} {kind : Kind} {es : Entries}
    (hnew : ∀ s t d, f s none = some d → ∃ d', f t none = some d' ∧ Differ s t path d d')
    (hold : ∀ c, es.lookup k = some c → Sets (fun s c => f s (some c)) path c) :
    Sets (fun s => Item.entry k (f s)) (.key k :: path) (.table kind es) := by
  intro s t d hd
  obtain ⟨es', hes, rfl⟩ := Option.map_eq_some_iff.1 hd
  suffices h : ∃ l r c c', es' = l ++ (k, c) :: r ∧ k ∉ l.map Prod.fst ∧ Differ s t path c c' ∧
      update k (f t) es = some (l ++ (k, c') :: r) by
    obtain ⟨l, r, c, c', rfl, hk, hdiff, hupdate⟩ := h
    refine ⟨.table kind (l ++ (k, c') :: r), ?_, .entry hk hdiff⟩
    change (update k (f t) es).map (Item.table kind) = _
    rw [hupdate]
    rfl
  clear hd
  -- Induction on the entries, up to that of the key.
  induction es generalizing es' with
  | nil =>
    obtain ⟨c, hc, rfl⟩ := Option.map_eq_some_iff.1 hes
    obtain ⟨c', hc', hdiff⟩ := hnew s t c hc
    refine ⟨[], [], c, c', rfl, List.not_mem_nil, hdiff, ?_⟩
    rw [update, hc']
    rfl
  | cons e es ih =>
    obtain ⟨j, x⟩ := e
    rw [update] at hes ⊢
    dsimp only at hes ⊢
    split_ifs at hes ⊢ with hj
    · subst hj
      obtain ⟨c, hc, rfl⟩ := Option.map_eq_some_iff.1 hes
      obtain ⟨c', hc' : f t (some x) = some c', hdiff⟩ := hold x List.lookup_cons_self s t c hc
      refine ⟨[], es, c, c', rfl, List.not_mem_nil, hdiff, ?_⟩
      rw [hc']
      rfl
    · obtain ⟨es'', hes'', rfl⟩ := Option.map_eq_some_iff.1 hes
      obtain ⟨l, r, c, c', rfl, hk, hdiff, hupdate⟩ := ih (fun c hc => hold c (by
        rw [List.lookup_cons, beq_false_of_ne (Ne.symm hj)]
        exact hc)) es'' hes''
      refine ⟨(j, x) :: l, r, c, c', rfl, ?_, hdiff, ?_⟩
      · rw [List.map_cons, List.mem_cons, not_or]
        exact ⟨Ne.symm hj, hk⟩
      · rw [hupdate]
        rfl

/-- The last item is set. -/
theorem Sets.onLast {op : Text → Item → Option Item} (ofTables : Bool) {items : List Item}
    (hop : ∀ c, items.getLast? = some c → Sets op path c) {ds : List Item}
    (hd : onLast (op s) items = some ds) : ∃ ds', Toml.onLast (op t) items = some ds' ∧
      Differ s t (.idx (items.length - 1) :: path) (.array ofTables ds) (.array ofTables ds') := by
  rcases List.eq_nil_or_concat items with rfl | ⟨l, c, rfl⟩
  · exact absurd hd (by simp [Toml.onLast])
  · rw [List.concat_eq_append] at hop hd ⊢
    rw [onLast_concat, Option.map_eq_some_iff] at hd
    obtain ⟨d, hd, rfl⟩ := hd
    obtain ⟨d', hd', hdiff⟩ := hop c List.getLast?_concat s t d hd
    refine ⟨l ++ [d'], ?_, ?_⟩
    · rw [onLast_concat, hd']
      rfl
    · rw [List.length_append, List.length_singleton, Nat.add_sub_cancel]
      exact .item hdiff

/-- A string is set in the table that an array of tables stands for. -/
theorem Sets.enter {op : Text → Item → Option Item}
    (hop : ∀ e, c.inner? = some e → Sets op path e) :
    Sets (fun s => Item.enter (op s)) (c.inward ++ path) c := by
  intro s t d hd
  cases c with
  | value v => exact hop _ rfl s t d hd
  | table kind es => exact hop _ rfl s t d hd
  | array ofTables items =>
    cases ofTables with
    | false => exact hop _ rfl s t d hd
    | true =>
      obtain ⟨ds, hds, rfl⟩ := Option.map_eq_some_iff.1 hd
      obtain ⟨ds', hds', hdiff⟩ := Sets.onLast true hop hds (t := t)
      refine ⟨.array true ds', ?_, hdiff⟩
      change (Toml.onLast (op t) items).map (Item.array true) = _
      rw [hds']
      rfl

/-- The value of a dotted key is set. -/
theorem Sets.nest (k : Text) : ∀ ks c,
    Sets (fun s => Item.nest (Item.add k (.value (.string s))) ks) ((ks ++ [k]).map .key) c
  | [], .value _ | [], .array .. | _ :: _, .value _ | _ :: _, .array .. =>
    fun _ _ _ hd => absurd hd (by simp [Item.nest, Item.add, Item.entry])
  | [], .table _ _ => .entry
      (fun s t d hd => ⟨.value (.string t), rfl, Option.some.inj hd ▸ .here⟩)
      (fun _ _ _ _ _ hd => absurd hd (by simp))
  | j :: ks, .table _ _ => .entry (fun s t d hd => Sets.nest k ks _ s t d hd) fun c _ s t d hd => by
      dsimp only at hd ⊢
      split_ifs at hd ⊢
      exact Sets.nest k ks c s t d hd

/-- A string that is put somewhere is there. -/
theorem Sets.walk (slot : Slot) : ∀ way c,
    Sets (fun s => Item.walk (Item.place (.value (.string s)) slot) way) (c.pathOf slot way) c
  -- At the end of the way, the value is pushed to an array in brackets, or added under a dotted
  -- key.
  | [], c => by
    cases slot with
    | item =>
      intro s t d hd
      cases c with
      | value | table => exact absurd hd (by simp [Item.walk, Item.place, Item.push])
      | array ofTables items =>
        cases ofTables with
        | true => exact absurd hd (by simp [Item.walk, Item.place, Item.push])
        | false =>
          obtain rfl := Option.some.inj hd
          exact ⟨_, rfl, .item .here⟩
    | pair ks k => exact .enter fun e _ => .nest k ks e
  | .key k :: way, c => by
    refine .enter fun e he => ?_
    cases e with
    | value | array => exact fun _ _ _ hd => absurd hd (by simp [Item.entry])
    | table kind es =>
      have hchild : c.child? k = es.lookup k := by rw [Item.child?, he]
      refine .entry (fun _ _ _ hd => absurd hd (by simp)) fun x hx => ?_
      rw [hchild, hx]
      exact Sets.walk slot way x
  | .last :: way, c => by
    intro s t d hd
    cases c with
    | value | table => exact absurd hd (by simp [Item.walk, Item.inLast])
    | array ofTables items =>
      cases ofTables with
      | true => exact absurd hd (by simp [Item.walk, Item.inLast])
      | false =>
        obtain ⟨ds, hds, rfl⟩ := Option.map_eq_some_iff.1 hd
        have hlast : ∀ x, items.getLast? = some x →
            Sets (fun s => Item.walk (Item.place (.value (.string s)) slot) way)
              (items.getLast?.elim [] (Item.pathOf slot way)) x := fun x hx => by
          rw [hx]
          exact Sets.walk slot way x
        obtain ⟨ds', hds', hdiff⟩ := Sets.onLast false hlast hds (t := t)
        refine ⟨.array false ds', ?_, hdiff⟩
        change (Toml.onLast _ items).map (Item.array false) = _
        rw [hds']
        rfl

end Toml
