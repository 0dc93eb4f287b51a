/-!
# Tables keyed by symbol

Rules, handlers and handler plans are bound to symbols. A table lists its bindings in symbol
order, so walking it, printing it and reporting its first fault all follow that order, whatever the
order of the insertions was.

The order is a property of the tables that `insert` builds (`Sorted`) and not a field of the type:
handlers hold tables of handlers, and a recursive type cannot carry a proof about itself.
-/

namespace PlantGrowth

/-- Bindings of symbols to values, in symbol order. -/
structure SymbolTable (β : Type) where
  entries : List (Char × β) := []
  deriving DecidableEq, Repr

namespace SymbolTable

variable {β : Type}

instance : Inhabited (SymbolTable β) := ⟨⟨[]⟩⟩

/-- The table without bindings. -/
def empty : SymbolTable β := ⟨[]⟩

/-- The value bound to a symbol. -/
def find? (table : SymbolTable β) (symbol : Char) : Option β :=
  table.entries.lookup symbol

/-- Is the symbol bound? -/
def contains (table : SymbolTable β) (symbol : Char) : Bool :=
  (table.find? symbol).isSome

/-- The number of bindings. -/
def size (table : SymbolTable β) : Nat := table.entries.length

/-- The bound symbols, in order. -/
def symbols (table : SymbolTable β) : List Char := table.entries.map (·.1)

/-- Puts a binding at its place in a sorted list, over the one of the same symbol if there is one.
-/
def place (symbol : Char) (value : β) : List (Char × β) → List (Char × β)
  | [] => [(symbol, value)]
  | (other, old) :: rest =>
    if symbol < other then (symbol, value) :: (other, old) :: rest
    else if symbol = other then (symbol, value) :: rest
    else (other, old) :: place symbol value rest

/-- Binds a symbol to a value, whatever it was bound to before. -/
def insert (table : SymbolTable β) (symbol : Char) (value : β) : SymbolTable β :=
  ⟨place symbol value table.entries⟩

/-- Binds the symbols of a list from left to right, so that the last binding of a symbol counts. -/
def ofList (bindings : List (Char × β)) : SymbolTable β :=
  bindings.foldl (fun table binding => table.insert binding.1 binding.2) empty

/-- Every symbol stands before the symbols that follow it. -/
def Sorted (table : SymbolTable β) : Prop :=
  table.entries.Pairwise fun a b => a.1 < b.1

@[simp] theorem find?_empty (symbol : Char) : (empty : SymbolTable β).find? symbol = none := rfl

theorem lookup_place (symbol other : Char) (value : β) (bindings : List (Char × β)) :
    (place symbol value bindings).lookup other =
      if other = symbol then some value else bindings.lookup other := by
  induction bindings with
  | nil => grind [place]
  | cons binding rest ih => grind [place]

/-- A look-up after an insertion sees the new binding at its symbol and the old ones elsewhere. -/
@[simp] theorem find?_insert (table : SymbolTable β) (symbol other : Char) (value : β) :
    (table.insert symbol value).find? other =
      if other = symbol then some value else table.find? other :=
  lookup_place symbol other value table.entries

/-! ## Order -/

theorem sorted_empty : (empty : SymbolTable β).Sorted := List.Pairwise.nil

theorem mem_symbols_place {symbol other : Char} {value : β} {bindings : List (Char × β)} :
    other ∈ (place symbol value bindings).map (·.1) ↔
      other = symbol ∨ other ∈ bindings.map (·.1) := by
  induction bindings with
  | nil => simp [place]
  | cons binding rest ih =>
    obtain ⟨first, old⟩ := binding
    rw [place]
    split
    · simp
    · split
      next heq =>
        subst heq
        simp
      · simp only [List.map_cons, List.mem_cons, ih]
        exact or_left_comm

/-- The order of a list survives putting a binding at its place. -/
theorem pairwise_place (symbol : Char) (value : β) {bindings : List (Char × β)}
    (h : bindings.Pairwise fun a b => a.1 < b.1) :
    (place symbol value bindings).Pairwise fun a b => a.1 < b.1 := by
  induction bindings with
  | nil => simp [place]
  | cons binding rest ih =>
    obtain ⟨first, old⟩ := binding
    obtain ⟨hfirst, hrest⟩ := List.pairwise_cons.mp h
    rw [place]
    split
    next hlt =>
      refine List.pairwise_cons.mpr ⟨fun b hb => ?_, h⟩
      rcases List.mem_cons.mp hb with rfl | hb
      · exact hlt
      · exact Char.lt_trans hlt (hfirst b hb)
    next hlt =>
      split
      next heq =>
        subst heq
        exact List.pairwise_cons.mpr ⟨hfirst, hrest⟩
      next hne =>
        refine List.pairwise_cons.mpr ⟨fun b hb => ?_, ih hrest⟩
        have hmem : b.1 ∈ (place symbol value rest).map (·.1) := List.mem_map_of_mem hb
        rcases mem_symbols_place.mp hmem with heq | hold
        · rcases Char.le_total first symbol with hle | hle
          · exact heq ▸ Char.not_le.mp fun hge => hne (Char.le_antisymm hge hle)
          · exact absurd (Char.not_le.mp fun hge => hne (Char.le_antisymm hle hge)) hlt
        · obtain ⟨c, hc, hcb⟩ := List.mem_map.mp hold
          exact hcb ▸ hfirst c hc

/-- The order of a table survives an insertion. -/
theorem Sorted.insert {table : SymbolTable β} (h : table.Sorted) (symbol : Char) (value : β) :
    (table.insert symbol value).Sorted :=
  pairwise_place symbol value h

theorem sorted_ofList (bindings : List (Char × β)) : (ofList bindings).Sorted := by
  have hfold (table : SymbolTable β) (h : table.Sorted) :
      (bindings.foldl (fun table binding => table.insert binding.1 binding.2) table).Sorted := by
    induction bindings generalizing table with
    | nil => exact h
    | cons binding rest ih => exact ih _ (h.insert binding.1 binding.2)
  exact hfold empty sorted_empty

end SymbolTable
end PlantGrowth
