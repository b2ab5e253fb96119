import Interlock.Proofs.Toml.Inline

/-!
Documents read back. A document whose tables have their plain entries first is read as the data that it
was written for: every line changes the one open table that it stands under.
-/

set_option autoImplicit false

namespace Interlock.Toml

def Opens (path : List String) (fill : Drafts → Drafts) : Prop :=
  ∀ change inner, descend change path (fill inner) = (change inner).map fill

section

variable {path : List String} {fill : Drafts → Drafts} {front : Drafts} {key : String}

theorem opens_root : Opens [] id := fun change inner => by rw [Option.map_id]; rfl

theorem descend_append (change : Drafts → Option Drafts) (path more : List String) (drafts : Drafts) :
    descend change (path ++ more) drafts = descend (descend change more) path drafts := by
  induction path generalizing drafts with
  | nil => rfl
  | cons key path ih =>
      rw [List.cons_append, descend, descend]
      congr 1
      funext draft
      cases draft with
      | none => simp only [ih]
      | some draft => cases draft <;> simp only [ih]

theorem revise_absent (fresh : key ∉ front.map Prod.fst) (change : Option Draft → Option Draft) :
    revise key change front = (change none).map fun draft => front ++ [(key, draft)] := by
  induction front with
  | nil => rfl
  | cons entry front ih =>
      rw [List.map_cons, List.mem_cons, not_or] at fresh
      rw [revise, if_neg (Ne.symm fresh.1), ih fresh.2, Option.map_map]
      rfl

theorem revise_last (fresh : key ∉ front.map Prod.fst) (change : Option Draft → Option Draft)
    (draft : Draft) :
    revise key change (front ++ [(key, draft)]) =
      (change (some draft)).map fun draft => front ++ [(key, draft)] := by
  induction front with
  | nil => rw [List.nil_append, revise, if_pos rfl]; rfl
  | cons entry front ih =>
      rw [List.map_cons, List.mem_cons, not_or] at fresh
      rw [List.cons_append, revise, if_neg (Ne.symm fresh.1), ih fresh.2, Option.map_map]
      rfl

theorem opens_table (opens : Opens path fill) (fresh : key ∉ front.map Prod.fst) (origin : Origin) :
    Opens (path ++ [key]) fun inner => fill (front ++ [(key, .table origin inner)]) := by
  intro change inner
  rw [descend_append, opens, descend, revise_last fresh, Option.map_map, descend, Option.map_map]
  rfl

theorem opens_tables (opens : Opens path fill) (fresh : key ∉ front.map Prod.fst) (closed : List Drafts) :
    Opens (path ++ [key]) fun inner => fill (front ++ [(key, .tables closed inner)]) := by
  intro change inner
  rw [descend_append, opens, descend, revise_last fresh, Option.map_map, descend, Option.map_map]
  rfl

theorem open_table_new (opens : Opens path fill) (fresh : key ∉ front.map Prod.fst) :
    openTable (path ++ [key]) (fill front) = some (fill (front ++ [(key, .table .named [])])) := by
  rw [openTable, List.getLast?_concat, List.dropLast_concat]
  dsimp only
  rw [opens, revise_absent fresh]
  rfl

theorem open_next_first (opens : Opens path fill) (fresh : key ∉ front.map Prod.fst) :
    openNext (path ++ [key]) (fill front) = some (fill (front ++ [(key, .tables [] [])])) := by
  rw [openNext, List.getLast?_concat, List.dropLast_concat]
  dsimp only
  rw [opens, revise_absent fresh]
  rfl

theorem open_next_more (opens : Opens path fill) (fresh : key ∉ front.map Prod.fst) (closed : List Drafts)
    (last : Drafts) :
    openNext (path ++ [key]) (fill (front ++ [(key, .tables closed last)])) =
      some (fill (front ++ [(key, .tables (closed ++ [last]) [])])) := by
  rw [openNext, List.getLast?_concat, List.dropLast_concat]
  dsimp only
  rw [opens, revise_last fresh]
  rfl

theorem assign_new (opens : Opens path fill) (fresh : key ∉ front.map Prod.fst) (tree : Tree) :
    descend (assign tree [key]) path (fill front) = some (fill (front ++ [(key, .value tree)])) := by
  rw [opens, assign, revise_absent fresh]
  rfl

end

theorem entries_of_append (drafts more : Drafts) :
    entriesOf (drafts ++ more) = entriesOf drafts ++ entriesOf more := by
  induction drafts with
  | nil => rfl
  | cons entry drafts ih => rw [List.cons_append, entriesOf, ih, entriesOf]; rfl

theorem entries_of_keys (drafts : Drafts) : (entriesOf drafts).map Prod.fst = drafts.map Prod.fst := by
  induction drafts with
  | nil => rfl
  | cons entry drafts ih => rw [entriesOf, List.map_cons, ih, List.map_cons]

theorem tables_of_append (closed more : List Drafts) :
    tablesOf (closed ++ more) = tablesOf closed ++ tablesOf more := by
  induction closed with
  | nil => rfl
  | cons entries closed ih => rw [List.cons_append, tablesOf, ih, tablesOf]; rfl

-- Reading the text takes a page to another one, with no more lines than characters.
def Advances (text : List Char) (page next : Page) : Prop :=
  ∃ lines ≤ text.length, ∀ fuel rest, readLines (fuel + lines) page (text ++ rest) = readLines fuel next rest

theorem advances_nothing (page : Page) : Advances [] page page := ⟨0, Nat.le_refl 0, fun _ _ => rfl⟩

theorem advances_append {text more : List Char} {page middle next : Page} (first : Advances text page middle)
    (second : Advances more middle next) : Advances (text ++ more) page next := by
  obtain ⟨count, few, reads⟩ := first
  obtain ⟨further, less, goes⟩ := second
  refine ⟨further + count, by rw [List.length_append]; omega, fun fuel rest => ?_⟩
  rw [List.append_assoc, ← Nat.add_assoc, reads, goes]

theorem advances_blank (page : Page) : Advances ['\n'] page page :=
  ⟨1, Nat.le_refl 1, fun _ _ => rfl⟩

theorem advances_line (c : Char) (text : List Char) (page next : Page) (space : isSpace c = false)
    (mark : c ≠ '#') (line : c ≠ '\n') (turn : c ≠ '\r')
    (read : ∀ rest, (if c = '[' then readHeader page (text ++ '\n' :: rest)
      else readEntry page (c :: (text ++ '\n' :: rest))) = some (next, '\n' :: rest)) :
    Advances (c :: text ++ ['\n']) page next := by
  refine ⟨1, by simp, fun fuel rest => ?_⟩
  have still : skipSpaces (c :: (text ++ '\n' :: rest)) = c :: (text ++ '\n' :: rest) := by
    rw [skipSpaces, List.dropWhile_cons, space]
    rfl
  rw [List.append_assoc, List.cons_append, List.singleton_append, readLines, still]
  dsimp only
  rw [if_neg (by simp [mark, line, turn]), read]
  rfl

section

variable {path : List String} {fill : Drafts → Drafts} {front : Drafts} {key : String}

theorem start_other (c d : Char) (start : isBare c = true ∨ c = '"') (bare : isBare d = false)
    (quote : d ≠ '"') : c ≠ d := by
  obtain bare' | rfl := start
  · exact bare_other c d bare' bare
  · exact quote.symm

theorem start_no_space (c : Char) (start : isBare c = true ∨ c = '"') : isSpace c = false := by
  have blank := start_other c ' ' start rfl (by decide)
  have tab := start_other c '\t' start rfl (by decide)
  simp [isSpace, blank, tab]

theorem list_opens (items : List Tree) : ∃ text, valueText (.array items) = '[' :: text := by
  rcases items with _ | ⟨item, _ | ⟨other, items⟩⟩
  · exact ⟨[']'], rfl⟩
  · exact ⟨valueText item ++ [']'], by simp [valueText]⟩
  · exact ⟨itemsText (item :: other :: items) ++ ['\n', ']'], by simp [valueText]⟩

theorem flat_still (tree : Tree) (flat : Flat tree) (rest : List Char) :
    skipSpaces (valueText tree ++ rest) = valueText tree ++ rest := by
  have start : ∃ c more, valueText tree ++ rest = c :: more ∧ isSpace c = false := by
    cases flat with
    | leaf _ leaf =>
        obtain ⟨c, more, opens, space, _⟩ := leaf_begun tree leaf rest
        exact ⟨c, more, opens, space⟩
    | list items leaves =>
        obtain ⟨text, opens⟩ := list_opens items
        exact ⟨'[', text ++ rest, by rw [opens]; rfl, rfl⟩
  obtain ⟨c, more, opens, space⟩ := start
  rw [opens, skipSpaces, List.dropWhile_cons, space]
  rfl

theorem entry_read (opens : Opens path fill) (fresh : key ∉ front.map Prod.fst) (tree : Tree)
    (flat : Flat tree) (rest : List Char) :
    readEntry ⟨fill front, path⟩ (keyText key ++ " = ".toList ++ valueText tree ++ '\n' :: rest) =
      some (⟨fill (front ++ [(key, .value tree)]), path⟩, '\n' :: rest) := by
  have parts := path_read [key] (" = ".toList ++ (valueText tree ++ '\n' :: rest)) (depthLimit - 1)
    (by simp) (by simp [depthLimit]) (by simp; rfl) (fun more same => by cases same)
  have still : skipSpaces (" = ".toList ++ (valueText tree ++ '\n' :: rest)) =
      '=' :: ' ' :: (valueText tree ++ '\n' :: rest) := rfl
  have behind : skipSpaces (' ' :: (valueText tree ++ '\n' :: rest)) = valueText tree ++ '\n' :: rest :=
    flat_still tree flat _
  have value := value_read tree flat ('\n' :: rest) (ended_line rest)
  rw [still, ← readKey] at parts
  have text : keyText key ++ " = ".toList ++ valueText tree ++ '\n' :: rest =
      pathText [key] ++ (" = ".toList ++ (valueText tree ++ '\n' :: rest)) := by
    simp [pathText, joinWith]
  rw [text, readEntry, parts]
  split
  · next same =>
      cases same
      dsimp only
      rw [behind, value]
      dsimp only
      rw [assign_new opens fresh]
      rfl
  · next none => exact absurd rfl (none _ _)

theorem advances_entry (opens : Opens path fill) (fresh : key ∉ front.map Prod.fst) (tree : Tree)
    (flat : Flat tree) :
    Advances (keyText key ++ " = ".toList ++ valueText tree ++ ['\n']) ⟨fill front, path⟩
      ⟨fill (front ++ [(key, .value tree)]), path⟩ := by
  obtain ⟨c, more, start, mark⟩ := key_begun key (" = ".toList ++ valueText tree)
  have text : keyText key ++ " = ".toList ++ valueText tree = c :: more := by
    rw [List.append_assoc, start]
  rw [text]
  refine advances_line c more _ _ (start_no_space c mark) (start_other c _ mark rfl (by decide))
    (start_other c _ mark rfl (by decide)) (start_other c _ mark rfl (by decide)) fun rest => ?_
  rw [if_neg (start_other c _ mark rfl (by decide)), ← List.cons_append, ← text]
  exact entry_read opens fresh tree flat rest

theorem path_begun (path : List String) (filled : path ≠ []) (rest : List Char) :
    ∃ c more, pathText path ++ rest = c :: more ∧ (isBare c = true ∨ c = '"') := by
  obtain ⟨key, others, rfl⟩ := List.exists_cons_of_ne_nil filled
  cases others with
  | nil => exact key_begun key rest
  | cons next others =>
      obtain ⟨c, more, start⟩ := key_begun key ('.' :: (pathText (next :: others) ++ rest))
      exact ⟨c, more, by simpa [pathText, joinWith] using start⟩

theorem header_path (short : (path ++ [key]).length < depthLimit) (rest : List Char) :
    readKey (pathText (path ++ [key]) ++ ']' :: rest) = some (path ++ [key], ']' :: rest) :=
  path_read (path ++ [key]) (']' :: rest) (depthLimit - 1) (by simp) (by omega) (by simp; rfl)
    (fun more same => by cases same)

def headerText (path : List String) : List Char := '\n' :: ('[' :: (pathText path ++ [']']) ++ ['\n'])

def itemHeaderText (path : List String) : List Char :=
  '\n' :: ('[' :: '[' :: (pathText path ++ [']', ']']) ++ ['\n'])

theorem advances_header (page : Page) (drafts : Drafts) (short : (path ++ [key]).length < depthLimit)
    (opened : openTable (path ++ [key]) page.drafts = some drafts) :
    Advances (headerText (path ++ [key])) page ⟨drafts, path ++ [key]⟩ := by
  refine advances_append (advances_blank page) ?_
  refine advances_line '[' _ page _ rfl (by decide) (by decide) (by decide) fun rest => ?_
  have parts := header_path short ('\n' :: rest)
  obtain ⟨c, more, start, mark⟩ := path_begun (path ++ [key]) (by simp) (']' :: '\n' :: rest)
  have text : pathText (path ++ [key]) ++ [']'] ++ '\n' :: rest =
      pathText (path ++ [key]) ++ ']' :: '\n' :: rest := by simp
  rw [if_pos rfl, text, start, readHeader]
  · rw [← start, parts]
    split
    · next same =>
        cases same
        rw [opened]
        rfl
    · next none => exact absurd rfl (none _ _)
  · exact fun _ same => start_other c '[' mark rfl (by decide) (List.cons.inj same).1

theorem advances_item_header (page : Page) (drafts : Drafts)
    (short : (path ++ [key]).length < depthLimit)
    (opened : openNext (path ++ [key]) page.drafts = some drafts) :
    Advances (itemHeaderText (path ++ [key])) page ⟨drafts, path ++ [key]⟩ := by
  refine advances_append (advances_blank page) ?_
  refine advances_line '[' _ page _ rfl (by decide) (by decide) (by decide) fun rest => ?_
  have parts := header_path short (']' :: '\n' :: rest)
  have text : '[' :: (pathText (path ++ [key]) ++ [']', ']']) ++ '\n' :: rest =
      '[' :: (pathText (path ++ [key]) ++ ']' :: ']' :: '\n' :: rest) := by simp
  rw [if_pos rfl, text, readHeader, parts]
  split
  · next same =>
      cases same
      rw [opened]
      rfl
  · next none => exact absurd rfl (none _ _)

end

def contentText (path : List String) (entries : Table) : List Char :=
  plainLines entries ++ sections path entries

-- A table with its plain entries first whose keys differ. So many keys may lead further down; a table
-- without plain entries is empty, for else it would have no header of its own.
inductive Laid : Nat → Table → Prop where
  | flats (budget : Nat) (entries : Table) (flat : ∀ entry ∈ entries, Flat entry.2)
      (apart : (entries.map Prod.fst).Nodup) : Laid budget entries
  | table (budget : Nat) (front : Table) (key : String) (inner : Table) (ahead : Laid (budget + 1) front)
      (fresh : key ∉ front.map Prod.fst) (inside : Laid budget inner)
      (headed : inner.isEmpty = true ∨ inner.any (fun entry => !hasHeader entry.2) = true) :
      Laid (budget + 1) (front ++ [(key, .table inner)])
  | tables (budget : Nat) (front : Table) (key : String) (first : Table) (items : List Table)
      (ahead : Laid (budget + 1) front) (fresh : key ∉ front.map Prod.fst)
      (inside : ∀ inner ∈ first :: items, Laid budget inner) :
      Laid (budget + 1) (front ++ [(key, .array ((first :: items).map .table))])

theorem flat_headless (tree : Tree) (flat : Flat tree) : hasHeader tree = false := by
  cases flat with
  | leaf _ leaf => cases leaf <;> rfl
  | list items leaves =>
      cases items with
      | nil => rfl
      | cons item items => cases leaves item (by simp) <;> rfl

theorem entry_texts_append (entries more : Table) :
    entryTexts (entries ++ more) = entryTexts entries ++ entryTexts more := by
  induction entries with
  | nil => rfl
  | cons entry entries ih => rw [List.cons_append, entryTexts, ih, entryTexts]; rfl

theorem plain_lines_append (entries more : Table) :
    plainLines (entries ++ more) = plainLines entries ++ plainLines more := by
  simp [plainLines, entry_texts_append]

theorem sections_append (path : List String) (entries more : Table) :
    sections path (entries ++ more) = sections path entries ++ sections path more := by
  induction entries with
  | nil => rw [List.nil_append, sections, List.nil_append]
  | cons entry entries ih =>
      obtain ⟨key, tree⟩ := entry
      rw [List.cons_append]
      cases tree <;> simp only [sections, ih, List.append_assoc]

theorem sections_plain (path : List String) (key : String) (tree : Tree) (rest : Table)
    (headless : hasHeader tree = false) : sections path ((key, tree) :: rest) = sections path rest := by
  cases tree with
  | table inner => simp [hasHeader] at headless
  | array items => rw [sections, if_neg (by simp [headless]), List.nil_append]
  | text | integer | float | bool | date => rw [sections] <;> simp

theorem content_append (path : List String) (front : Table) (entry : String × Tree)
    (headed : hasHeader entry.2 = true) :
    contentText path (front ++ [entry]) = contentText path front ++ sections path [entry] := by
  have none : plainLines [entry] = [] := by simp [plainLines, headed, entryTexts]
  rw [contentText, plain_lines_append, none, sections_append, List.append_nil, contentText,
    List.append_assoc]

theorem content_table (path : List String) (key : String) (inner : Table)
    (headed : inner.isEmpty = true ∨ inner.any (fun entry => !hasHeader entry.2) = true) :
    sections path [(key, .table inner)] =
      headerText (path ++ [key]) ++ contentText (path ++ [key]) inner := by
  have shown : (inner.isEmpty || inner.any fun entry => !hasHeader entry.2) = true :=
    Bool.or_eq_true_iff.mpr headed
  simp [sections, shown, headerText, contentText]

theorem content_tables (path : List String) (key : String) (first : Table) (items : List Table) :
    sections path [(key, .array ((first :: items).map .table))] =
      itemSections (path ++ [key]) ((first :: items).map .table) := by
  have headed : hasHeader (.array ((first :: items).map .table)) = true := by
    simp [hasHeader, isTable]
  rw [sections, if_pos headed, sections, List.append_nil]

theorem content_item (path : List String) (first : Table) (items : List Table) :
    itemSections path ((first :: items).map .table) =
      itemHeaderText path ++ contentText path first ++ itemSections path (items.map .table) := by
  simp [itemSections, itemHeaderText, contentText]

def valuesOf (entries : Table) : Drafts := entries.map fun entry => (entry.1, .value entry.2)

theorem values_entries (entries : Table) : entriesOf (valuesOf entries) = entries := by
  induction entries with
  | nil => rfl
  | cons entry entries ih => rw [valuesOf, List.map_cons, entriesOf, ← valuesOf, ih, Draft.toTree]

section

variable {path : List String} {fill : Drafts → Drafts} {front : Drafts} {key : String}

theorem flats_content (entries : Table) (flat : ∀ entry ∈ entries, Flat entry.2) :
    contentText path entries = plainLines entries := by
  have none : sections path entries = [] := by
    induction entries with
    | nil => rw [sections]
    | cons entry entries ih =>
        obtain ⟨first, others⟩ := List.forall_mem_cons.mp flat
        rw [sections_plain path _ _ _ (flat_headless entry.2 first), ih others]
  rw [contentText, none, List.append_nil]

theorem flats_read (opens : Opens path fill) (entries : Table) (flat : ∀ entry ∈ entries, Flat entry.2)
    (apart : (front.map Prod.fst ++ entries.map Prod.fst).Nodup) :
    Advances (plainLines entries) ⟨fill front, path⟩ ⟨fill (front ++ valuesOf entries), path⟩ := by
  induction entries generalizing front with
  | nil =>
      rw [valuesOf, List.map_nil, List.append_nil]
      exact advances_nothing _
  | cons entry entries ih =>
      obtain ⟨first, others⟩ := List.forall_mem_cons.mp flat
      obtain ⟨key, tree⟩ := entry
      have fresh : key ∉ front.map Prod.fst := by
        intro member
        exact (List.nodup_append.mp apart).2.2 key member key (by simp) rfl
      have text : plainLines ((key, tree) :: entries) =
          (keyText key ++ " = ".toList ++ valueText tree ++ ['\n']) ++ plainLines entries := by
        simp [plainLines, flat_headless tree first, entryTexts]
      have later : Advances (plainLines entries) ⟨fill (front ++ [(key, .value tree)]), path⟩
          ⟨fill (front ++ [(key, .value tree)] ++ valuesOf entries), path⟩ :=
        ih others (by simpa using apart)
      have same : front ++ valuesOf ((key, tree) :: entries) =
          front ++ [(key, .value tree)] ++ valuesOf entries := by simp [valuesOf]
      rw [text, same]
      exact advances_append (advances_entry opens fresh tree first) later

end

-- Reading what a table holds in writing fills the open table with it, wherever the table is.
def Reads (budget : Nat) (entries : Table) : Prop :=
  ∀ path fill, Opens path fill → path.length + budget < depthLimit →
    ∃ drafts last, entriesOf drafts = entries ∧
      Advances (contentText path entries) ⟨fill [], path⟩ ⟨fill drafts, last⟩

section

variable {path : List String} {fill : Drafts → Drafts} {front : Drafts} {key : String} {budget : Nat}

theorem item_read (opens : Opens path fill) (fresh : key ∉ front.map Prod.fst)
    (short : path.length + 1 + budget < depthLimit) (page : Page) (closed : List Drafts)
    (opened : openNext (path ++ [key]) page.drafts = some (fill (front ++ [(key, .tables closed [])])))
    (inner : Table) (reads : Reads budget inner) :
    ∃ drafts last, entriesOf drafts = inner ∧
      Advances (itemHeaderText (path ++ [key]) ++ contentText (path ++ [key]) inner) page
        ⟨fill (front ++ [(key, .tables closed drafts)]), last⟩ := by
  have within : (path ++ [key]).length + budget < depthLimit := by simpa using short
  obtain ⟨drafts, last, same, content⟩ := reads _ _ (opens_tables opens fresh closed) within
  refine ⟨drafts, last, same, advances_append ?_ content⟩
  exact advances_item_header page _ (by omega) opened

theorem more_items_read (opens : Opens path fill) (fresh : key ∉ front.map Prod.fst)
    (short : path.length + 1 + budget < depthLimit) (items : List Table)
    (reads : ∀ inner ∈ items, Reads budget inner) (closed : List Drafts) (open' : Drafts)
    (last : List String) :
    ∃ closed' open'' last', tablesOf (closed' ++ [open'']) =
        tablesOf (closed ++ [open']) ++ items.map .table ∧
      Advances (itemSections (path ++ [key]) (items.map .table))
        ⟨fill (front ++ [(key, .tables closed open')]), last⟩
        ⟨fill (front ++ [(key, .tables closed' open'')]), last'⟩ := by
  induction items generalizing closed open' last with
  | nil =>
      refine ⟨closed, open', last, by simp, ?_⟩
      rw [List.map_nil, itemSections]
      exact advances_nothing _
  | cons inner items ih =>
      obtain ⟨first, others⟩ := List.forall_mem_cons.mp reads
      obtain ⟨drafts, middle, same, item⟩ := item_read opens fresh short
        ⟨fill (front ++ [(key, .tables closed open')]), last⟩ (closed ++ [open'])
        (open_next_more opens fresh closed open') inner first
      obtain ⟨closed', open'', last', listed, later⟩ := ih others (closed ++ [open']) drafts middle
      refine ⟨closed', open'', last', ?_, ?_⟩
      · rw [listed, tables_of_append (closed ++ [open'])]
        simp [tablesOf, same]
      · rw [content_item]
        exact advances_append item later

theorem laid_reads (entries : Table) (laid : Laid budget entries) : Reads budget entries := by
  induction laid with
  | flats budget entries flat apart =>
      intro path fill opens _
      refine ⟨valuesOf entries, path, values_entries entries, ?_⟩
      rw [flats_content entries flat]
      have alone : (([] : Drafts).map Prod.fst ++ entries.map Prod.fst).Nodup := by simpa using apart
      exact flats_read opens entries flat alone
  | table budget front key inner _ fresh _ headed ahead inside =>
      intro path fill opens short
      obtain ⟨drafts, last, rfl, before⟩ := ahead path fill opens short
      rw [entries_of_keys] at fresh
      have within : (path ++ [key]).length + budget < depthLimit := by
        rw [List.length_append, List.length_singleton]
        omega
      obtain ⟨held, last', rfl, content⟩ := inside _ _ (opens_table opens fresh .named) within
      have header := advances_header ⟨fill drafts, last⟩ _ (by omega) (open_table_new opens fresh)
      refine ⟨drafts ++ [(key, .table .named held)], last', by rw [entries_of_append]; rfl, ?_⟩
      rw [content_append path _ _ rfl, content_table path key _ headed]
      exact advances_append before (advances_append header content)
  | tables budget front key first items _ fresh _ ahead inside =>
      intro path fill opens short
      obtain ⟨drafts, last, rfl, before⟩ := ahead path fill opens short
      rw [entries_of_keys] at fresh
      obtain ⟨start, others⟩ := List.forall_mem_cons.mp inside
      obtain ⟨held, middle, same, item⟩ := item_read opens fresh (by omega) ⟨fill drafts, last⟩ []
        (open_next_first opens fresh) first start
      obtain ⟨closed, open', last', listed, more⟩ := more_items_read opens fresh (by omega) items others []
        held middle
      refine ⟨drafts ++ [(key, .tables closed open')], last', ?_, ?_⟩
      · rw [tables_of_append, List.nil_append] at listed
        simp only [tablesOf] at listed
        rw [entries_of_append, entriesOf, Draft.toTree, listed, same]
        rfl
      · have headed : hasHeader (.array ((first :: items).map .table)) = true := by
          simp [hasHeader, isTable]
        rw [content_append path _ _ headed, content_tables, content_item]
        exact advances_append before (advances_append item more)

end

def Introduced (text : List Char) : Prop :=
  ∀ c ∈ text.head?, isBare c = true ∨ c = '"' ∨ ∃ rest, text = '\n' :: '[' :: rest

theorem introduced_append {text more : List Char} (first : Introduced text) (second : Introduced more) :
    Introduced (text ++ more) := by
  cases text with
  | nil => exact second
  | cons c text =>
      intro d start
      obtain bare | quote | ⟨rest, same⟩ := first d start
      · exact .inl bare
      · exact .inr (.inl quote)
      · exact .inr (.inr ⟨rest ++ more, by rw [same]; rfl⟩)

theorem content_introduced (budget : Nat) (path : List String) (entries : Table)
    (laid : Laid budget entries) : Introduced (contentText path entries) := by
  have header : ∀ text more, Introduced ('\n' :: '[' :: text ++ more) := fun text more c start => by
    exact .inr (.inr ⟨text ++ more, rfl⟩)
  induction laid with
  | flats budget entries flat apart =>
      rw [flats_content entries flat]
      cases entries with
      | nil => exact fun c start => by simp [plainLines, entryTexts] at start
      | cons entry entries =>
          have headless := flat_headless entry.2 (flat entry List.mem_cons_self)
          obtain ⟨c, more, opens, start⟩ := key_begun entry.1
            (" = ".toList ++ valueText entry.2 ++ '\n' :: plainLines entries)
          have text : plainLines (entry :: entries) = c :: more := by
            rw [← opens]
            simp [plainLines, headless, entryTexts]
          intro d first
          rw [text] at first
          cases first
          exact start.imp_right .inl
  | table budget front key inner _ _ _ headed ahead _ =>
      rw [content_append path front _ rfl, content_table path key inner headed]
      exact introduced_append ahead (header _ _)
  | tables budget front key first items _ _ _ ahead _ =>
      have headed : hasHeader (.array ((first :: items).map .table)) = true := by simp [hasHeader, isTable]
      rw [content_append path front _ headed, content_tables, content_item, List.append_assoc]
      exact introduced_append ahead (header _ _)

theorem bare_small (c : Char) (start : isBare c = true ∨ c = '"') : c.toNat ≠ 0xfeff := by
  intro code
  have same : c = Char.ofNat 0xfeff := by rw [← code, Char.ofNat_toNat]
  subst same
  revert start
  decide

theorem advances_whole (text : List Char) (next : Page) (advances : Advances text .blank next) :
    readLines (text.length + 1) .blank text = some next := by
  obtain ⟨lines, few, reads⟩ := advances
  have all := reads (text.length - lines + 1) []
  rw [List.append_nil] at all
  have fuel : text.length - lines + 1 + lines = text.length + 1 := by omega
  rw [fuel] at all
  rw [all]
  rfl

theorem no_byte_mark (c : Char) (rest : List Char) (other : c.toNat ≠ 0xfeff) :
    skipByteMark (c :: rest) = c :: rest := by
  rw [skipByteMark, if_neg other]

def dropBreak : List Char → List Char
  | '\n' :: rest => rest
  | text => text

theorem introduced_read (text : List Char) (next : Page) (introduced : Introduced text)
    (advances : Advances text .blank next) :
    readLines ((skipByteMark (dropBreak text)).length + 1) .blank (skipByteMark (dropBreak text)) =
      some next := by
  have whole := advances_whole text next advances
  cases text with
  | nil => exact whole
  | cons c text =>
      have start : (isBare c = true ∨ c = '"') ∨ ∃ rest, c :: text = '\n' :: '[' :: rest :=
        or_assoc.mpr (introduced c rfl)
      obtain start | ⟨rest, opens⟩ := start
      · have kept : dropBreak (c :: text) = c :: text := by
          rw [dropBreak]
          exact fun _ line => start_other c _ start rfl (by decide) (List.cons.inj line).1
        rw [kept, no_byte_mark c text (bare_small c start)]
        exact whole
      · rw [opens] at whole ⊢
        rw [dropBreak, no_byte_mark '[' rest (by decide)]
        exact whole

theorem write_read (entries : Table) (laid : Laid (depthLimit - 1) entries) :
    read (write entries) = some entries := by
  obtain ⟨drafts, last, same, advances⟩ := laid_reads entries laid [] id opens_root (by decide)
  have introduced := content_introduced _ [] entries laid
  have text : (write entries).toList = dropBreak (contentText [] entries) := String.toList_ofList
  rw [read, text, introduced_read _ _ introduced advances]
  exact congrArg some same

def arranged (entries : Table) : Table :=
  (entries.filter fun entry => !hasHeader entry.2) ++ entries.filter fun entry => hasHeader entry.2

theorem arranged_perm (entries : Table) : (arranged entries).Perm entries := by
  have perm := List.filter_append_perm (fun entry : String × Tree => !hasHeader entry.2) entries
  rw [arranged]
  simpa only [Bool.not_not] using perm

theorem sections_arranged (path : List String) (entries : Table) :
    sections path (arranged entries) = sections path entries := by
  have plain : sections path (entries.filter fun entry => !hasHeader entry.2) = [] := by
    induction entries with
    | nil => rw [List.filter_nil, sections]
    | cons entry entries ih =>
        cases headed : hasHeader entry.2 with
        | true => rw [List.filter_cons_of_neg (by simp [headed]), ih]
        | false => rw [List.filter_cons_of_pos (by simp [headed]), sections_plain path _ _ _ headed, ih]
  have others : sections path (entries.filter fun entry => hasHeader entry.2) = sections path entries := by
    clear plain
    induction entries with
    | nil => rw [List.filter_nil]
    | cons entry entries ih =>
        cases headed : hasHeader entry.2 with
        | true =>
            rw [List.filter_cons_of_pos (by exact headed), ← List.singleton_append, sections_append, ih,
              ← sections_append, List.singleton_append]
        | false => rw [List.filter_cons_of_neg (by simp [headed]), ih, sections_plain path _ _ _ headed]
  rw [arranged, sections_append, plain, others, List.nil_append]

theorem write_arranged (entries : Table) : write (arranged entries) = write entries := by
  have plain : plainLines (arranged entries) = plainLines entries := by
    have none : (entries.filter fun entry => hasHeader entry.2).filter (fun entry => !hasHeader entry.2) =
        [] := List.filter_eq_nil_iff.mpr fun entry member => by simp [(List.mem_filter.mp member).2]
    rw [plainLines, arranged, List.filter_append, none, List.append_nil, List.filter_filter, plainLines]
    simp only [Bool.and_self]
  rw [write, plain, sections_arranged, ← write]

inductive Sits (budget : Nat) : Tree → Prop where
  | flat (tree : Tree) (flat : Flat tree) : Sits budget tree
  | table (inner : Table) (inside : Laid budget inner)
      (headed : inner.isEmpty = true ∨ inner.any (fun entry => !hasHeader entry.2) = true) :
      Sits budget (.table inner)
  | tables (first : Table) (items : List Table) (inside : ∀ inner ∈ first :: items, Laid budget inner) :
      Sits budget (.array ((first :: items).map .table))

section

variable {budget : Nat}

theorem laid_more (front more : Table) (laid : Laid (budget + 1) front)
    (sits : ∀ entry ∈ more, Sits budget entry.2) (sections : ∀ entry ∈ more, hasHeader entry.2 = true)
    (apart : ((front ++ more).map Prod.fst).Nodup) : Laid (budget + 1) (front ++ more) := by
  induction more generalizing front with
  | nil => rwa [List.append_nil]
  | cons entry more ih =>
      obtain ⟨first, others⟩ := List.forall_mem_cons.mp sits
      obtain ⟨own, rest⟩ := List.forall_mem_cons.mp sections
      rw [List.append_cons] at apart ⊢
      have fresh : entry.1 ∉ front.map Prod.fst := by
        rw [List.map_append, List.map_append, List.nodup_append] at apart
        exact fun member => (List.nodup_append.mp apart.1).2.2 _ member _ (by simp) rfl
      refine ih (front ++ [entry]) ?_ others rest apart
      obtain ⟨key, tree⟩ := entry
      cases first with
      | flat _ flat => exact absurd own (by simp [flat_headless tree flat])
      | table inner inside headed => exact .table budget front key inner laid fresh inside headed
      | tables first items inside => exact .tables budget front key first items laid fresh inside

theorem laid_arranged (entries : Table) (sits : ∀ entry ∈ entries, Sits budget entry.2)
    (apart : (entries.map Prod.fst).Nodup) : Laid (budget + 1) (arranged entries) := by
  have keys : ((arranged entries).map Prod.fst).Nodup :=
    ((arranged_perm entries).map _).nodup_iff.mpr apart
  refine laid_more _ _ (.flats _ _ (fun entry member => ?_) ?_)
    (fun entry member => sits entry (List.mem_filter.mp member).1) (by simp) keys
  · obtain ⟨listed, headless⟩ := List.mem_filter.mp member
    have sits := sits entry listed
    generalize entry.2 = tree at headless sits ⊢
    cases sits with
    | flat _ flat => exact flat
    | table inner => simp [hasHeader] at headless
    | tables first items => simp [hasHeader, isTable] at headless
  · rw [arranged, List.map_append] at keys
    exact (List.nodup_append.mp keys).1

end

theorem write_returns (entries : Table) (sits : ∀ entry ∈ entries, Sits (depthLimit - 2) entry.2)
    (apart : (entries.map Prod.fst).Nodup) : read (write entries) = some (arranged entries) := by
  rw [← write_arranged]
  exact write_read _ (laid_arranged entries sits apart)

end Interlock.Toml
