import Chahua.Mentions.MentionText

namespace Chahua.Mentions

/-- A character, or a text that stands for a mention. -/
inductive Item where
  | char (c : Char)
  | name (text : List Char)

def Item.expand : Item → List Char
  | .char c => [c]
  | .name text => text

def Item.compress : Item → Char
  | .char c => c
  | .name _ => '@'

def expand (items : List Item) : List Char := items.flatMap Item.expand

/-- The text with one character for every mention. -/
def compress (items : List Item) : List Char := items.map Item.compress

/-- Neither a backtick nor a backslash. -/
def Plain (text : List Char) : Prop := ∀ c ∈ text, c ≠ backtick ∧ c ≠ backslash

instance (text : List Char) : Decidable (Plain text) :=
  List.decidableBAll (fun c => c ≠ backtick ∧ c ≠ backslash) text

/-- The texts of mentions are plain, and there is one for each. -/
def Named (items : List Item) : Prop := ∀ text, .name text ∈ items → text ≠ [] ∧ Plain text

theorem Named.tail {item : Item} {items : List Item} (h : Named (item :: items)) : Named items :=
  fun text hmem => h text (List.mem_cons_of_mem _ hmem)

theorem Named.suffix {items rest : List Item} (h : Named items) (hsuffix : rest <:+ items) :
    Named rest :=
  fun text hmem => h text (hsuffix.subset hmem)

@[simp] theorem expand_nil : expand [] = [] := rfl

@[simp] theorem compress_nil : compress [] = [] := rfl

@[simp] theorem expand_cons (item : Item) (items : List Item) :
    expand (item :: items) = item.expand ++ expand items := rfl

@[simp] theorem compress_cons (item : Item) (items : List Item) :
    compress (item :: items) = item.compress :: compress items := rfl

theorem expand_append (items rest : List Item) :
    expand (items ++ rest) = expand items ++ expand rest := List.flatMap_append

theorem compress_append (items rest : List Item) :
    compress (items ++ rest) = compress items ++ compress rest := List.map_append

@[simp] theorem compress_length (items : List Item) : (compress items).length = items.length :=
  List.length_map _

theorem Item.expand_length_pos {item : Item} {items : List Item} (h : Named (item :: items)) :
    0 < item.expand.length := by
  cases item with
  | char c => exact Nat.zero_lt_one
  | name text => exact List.length_pos_of_ne_nil (h text List.mem_cons_self).1

theorem expand_char (text : List Char) : expand (text.map .char) = text := by
  induction text with
  | nil => rfl
  | cons c text ih => simp [Item.expand, ih]

theorem Plain.tail {c : Char} {text : List Char} (h : Plain (c :: text)) : Plain text :=
  fun d hmem => h d (List.mem_cons_of_mem _ hmem)

/-- Plain characters are passed one by one. -/
theorem scanRegions_plain {text : List Char} (h : Plain text) (fuel pos : Nat) (rest : List Char) :
    scanRegions (text.length + fuel) pos (text ++ rest) =
      scanRegions fuel (pos + text.length) rest := by
  induction text generalizing pos with
  | nil => simp
  | cons c text ih =>
    obtain ⟨htick, hslash⟩ := h c List.mem_cons_self
    rw [List.length_cons, Nat.add_right_comm, List.cons_append, scanRegions, if_neg hslash,
      if_pos htick, ih h.tail]
    congr 1
    omega

theorem closeRun_plain {text : List Char} (h : Plain text) (length fuel scan : Nat)
    (rest : List Char) : closeRun length (text.length + fuel) scan (text ++ rest) =
      closeRun length fuel (scan + text.length) rest := by
  induction text generalizing scan with
  | nil => simp
  | cons c text ih =>
    rw [List.length_cons, Nat.add_right_comm, List.cons_append, closeRun,
      if_pos (h c List.mem_cons_self).1, ih h.tail]
    congr 1
    omega

/-- A run of backticks has the same length with the mentions and without. -/
theorem backtickRun_items (items : List Item) (h : Named items) :
    ∃ n rest, items = List.replicate n (.char backtick) ++ rest ∧
      backtickRun (expand items) = n ∧ backtickRun (compress items) = n := by
  induction items with
  | nil => exact ⟨0, [], rfl, rfl, rfl⟩
  | cons item items ih =>
    obtain ⟨n, rest, heq, hexpand, hcompress⟩ := ih h.tail
    cases item with
    | char c =>
      by_cases hc : c = backtick
      · subst hc
        refine ⟨n + 1, rest, by rw [heq]; rfl, ?_, ?_⟩
        · simp only [backtickRun, expand_cons, Item.expand, List.cons_append, List.nil_append]
            at hexpand ⊢
          rw [List.takeWhile_cons_of_pos (by simp), List.length_cons, hexpand]
        · simp only [backtickRun, compress_cons, Item.compress] at hcompress ⊢
          rw [List.takeWhile_cons_of_pos (by simp), List.length_cons, hcompress]
      · refine ⟨0, .char c :: items, rfl, ?_, ?_⟩
        · simp [backtickRun, Item.expand, hc]
        · simp [backtickRun, Item.compress, hc]
    | name text =>
      obtain ⟨hne, hplain⟩ := h text List.mem_cons_self
      refine ⟨0, .name text :: items, rfl, ?_, ?_⟩
      · cases text with
        | nil => exact absurd rfl hne
        | cons c text =>
          have hc := (hplain c List.mem_cons_self).1
          simp [backtickRun, Item.expand, hc]
      · have hc : '@' ≠ backtick := by decide
        simp [backtickRun, Item.compress, hc]

theorem expand_replicate (n : Nat) :
    expand (List.replicate n (.char backtick)) = List.replicate n backtick := by
  induction n with
  | zero => rfl
  | succ n ih => simp [List.replicate_succ, Item.expand, ih]

theorem compress_replicate (n : Nat) :
    compress (List.replicate n (.char backtick)) = List.replicate n backtick := by
  simp [compress, Item.compress]

/-- A run of backticks and what follows it. -/
theorem tick_items {items : List Item} (h : Named (.char backtick :: items)) :
    ∃ n rest, .char backtick :: items = List.replicate n (.char backtick) ++ rest ∧ 0 < n ∧
      backtickRun (backtick :: expand items) = n ∧ backtickRun (backtick :: compress items) = n ∧
      (backtick :: expand items).drop n = expand rest ∧
      (backtick :: compress items).drop n = compress rest := by
  obtain ⟨n, rest, heq, hexpand, hcompress⟩ := backtickRun_items _ h
  refine ⟨n, rest, heq, ?_, hexpand, hcompress, ?_, ?_⟩
  · have hrun : backtickRun (expand (.char backtick :: items)) =
        ((expand items).takeWhile (· = backtick)).length + 1 := by
      simp [backtickRun, Item.expand]
    omega
  · show (expand (.char backtick :: items)).drop n = _
    rw [heq, expand_append, expand_replicate]
    exact List.drop_left' List.length_replicate
  · show (compress (.char backtick :: items)).drop n = _
    rw [heq, compress_append, compress_replicate]
    exact List.drop_left' List.length_replicate

theorem length_expand_ticks (n : Nat) (rest : List Item) :
    (expand (List.replicate n (.char backtick) ++ rest)).length = n + (expand rest).length := by
  rw [expand_append, expand_replicate, List.length_append, List.length_replicate]

theorem length_ticks (n : Nat) (rest : List Item) :
    (List.replicate n (Item.char backtick) ++ rest).length = n + rest.length := by
  rw [List.length_append, List.length_replicate]

/-- Whether and where a run closes a code span, with the mentions and without. -/
def Closes (length fuel fuel' scan scan' : Nat) (items : List Item) : Prop :=
  (closeRun length fuel scan (expand items) = none ∧
      closeRun length fuel' scan' (compress items) = none) ∨
    ∃ front rest, items = front ++ rest ∧
      closeRun length fuel scan (expand items) = some (scan + (expand front).length) ∧
      closeRun length fuel' scan' (compress items) = some (scan' + front.length)

/-- Both scans pass some items. -/
theorem Closes.pass {length fuel fuel' more more' scan scan' n n' : Nat} {front items : List Item}
    (h : Closes length more more' (scan + n) (scan' + n') items)
    (hn : (expand front).length = n) (hn' : front.length = n')
    (hexpand : closeRun length fuel scan (expand (front ++ items)) =
      closeRun length more (scan + n) (expand items))
    (hcompress : closeRun length fuel' scan' (compress (front ++ items)) =
      closeRun length more' (scan' + n') (compress items)) :
    Closes length fuel fuel' scan scan' (front ++ items) := by
  unfold Closes
  rw [hexpand, hcompress]
  obtain hnone | ⟨before, rest, rfl, hbefore, hbefore'⟩ := h
  · exact .inl hnone
  · refine .inr ⟨front ++ before, rest, (List.append_assoc ..).symm, hbefore.trans ?_,
      hbefore'.trans ?_⟩
    · rw [expand_append, List.length_append, hn, Nat.add_assoc]
    · rw [List.length_append, hn', Nat.add_assoc]

theorem closeRun_ge {length fuel scan stop : Nat} {source : List Char}
    (h : closeRun length fuel scan source = some stop) : scan ≤ stop := by
  induction fuel generalizing scan source with
  | zero => cases h
  | succ fuel ih =>
    cases source with
    | nil => cases h
    | cons c source =>
      rw [closeRun] at h
      split at h
      · exact Nat.le_trans (Nat.le_succ scan) (ih h)
      · dsimp only at h
        split at h
        · rw [← Option.some.inj h]
          exact Nat.le_add_right ..
        · exact Nat.le_trans (Nat.le_add_right ..) (ih h)

/-- A code span closes at the same item with the mentions and without. -/
theorem closeRun_items (length k : Nat) {items : List Item} (hk : items.length ≤ k)
    (h : Named items) (fuel fuel' scan scan' : Nat) (hfuel : (expand items).length < fuel)
    (hfuel' : items.length < fuel') : Closes length fuel fuel' scan scan' items := by
  induction k generalizing items fuel fuel' scan scan' with
  | zero =>
    obtain rfl := List.length_eq_zero_iff.mp (Nat.le_zero.mp hk)
    obtain ⟨fuel, rfl⟩ : ∃ more, fuel = more + 1 := ⟨fuel - 1, by omega⟩
    obtain ⟨fuel', rfl⟩ : ∃ more, fuel' = more + 1 := ⟨fuel' - 1, by omega⟩
    exact .inl ⟨rfl, rfl⟩
  | succ k ih =>
    obtain ⟨fuel, rfl⟩ : ∃ more, fuel = more + 1 := ⟨fuel - 1, by omega⟩
    obtain ⟨fuel', rfl⟩ : ∃ more, fuel' = more + 1 := ⟨fuel' - 1, by omega⟩
    match items, h, hk, hfuel, hfuel' with
    | [], _, _, _, _ => exact .inl ⟨rfl, rfl⟩
    | .name text :: items, h, hk, hfuel, hfuel' =>
      obtain ⟨hne, hplain⟩ := h text List.mem_cons_self
      simp only [expand_cons, Item.expand, List.length_append, List.length_cons] at hk hfuel hfuel'
      have hpos := List.length_pos_of_ne_nil hne
      obtain ⟨more, hmore⟩ : ∃ more, fuel + 1 = text.length + more :=
        ⟨fuel + 1 - text.length, by omega⟩
      have hrest : Closes length more fuel' (scan + text.length) (scan' + 1) items :=
        ih (by omega) h.tail _ _ _ _ (by omega) (by omega)
      refine @Closes.pass _ _ _ _ _ _ _ _ _ [.name text] items hrest ?_ rfl ?_ ?_
      · simp [Item.expand]
      · rw [hmore]
        exact closeRun_plain hplain length more scan (expand items)
      · have htick : (Item.name text).compress ≠ backtick := by
          show '@' ≠ backtick
          decide
        rw [List.singleton_append, compress_cons, closeRun, if_pos htick]
    | .char c :: items, h, hk, hfuel, hfuel' =>
      by_cases hc : c = backtick
      · subst hc
        obtain ⟨n, rest, heq, hpos, hexpand, hcompress, hdrop, hdrop'⟩ := tick_items h
        have hsize := congrArg (fun items => (expand items).length) heq
        have hsize' := congrArg List.length heq
        rw [length_expand_ticks] at hsize
        rw [length_ticks] at hsize'
        have hE : closeRun length (fuel + 1) scan (expand (.char backtick :: items)) =
            if n = length then some (scan + n)
            else closeRun length fuel (scan + n) (expand rest) := by
          show closeRun length (fuel + 1) scan (backtick :: expand items) = _
          rw [closeRun, if_neg (not_not_intro rfl)]
          dsimp only
          rw [hexpand, hdrop]
        have hC : closeRun length (fuel' + 1) scan' (compress (.char backtick :: items)) =
            if n = length then some (scan' + n)
            else closeRun length fuel' (scan' + n) (compress rest) := by
          show closeRun length (fuel' + 1) scan' (backtick :: compress items) = _
          rw [closeRun, if_neg (not_not_intro rfl)]
          dsimp only
          rw [hcompress, hdrop']
        by_cases hlength : n = length
        · rw [if_pos hlength] at hE hC
          refine .inr ⟨List.replicate n (.char backtick), rest, heq, hE.trans ?_, hC.trans ?_⟩
          · rw [expand_replicate, List.length_replicate]
          · rw [List.length_replicate]
        · rw [if_neg hlength] at hE hC
          have hnamed : Named rest := h.suffix ⟨_, heq.symm⟩
          have hrest : Closes length fuel fuel' (scan + n) (scan' + n) rest :=
            ih (by simp only [List.length_cons] at hk hsize'; omega) hnamed _ _ _ _
              (by omega) (by omega)
          rw [heq] at hE hC ⊢
          exact hrest.pass (by rw [expand_replicate, List.length_replicate]) List.length_replicate
            hE hC
      · simp only [expand_cons, Item.expand, List.singleton_append, List.length_cons]
          at hk hfuel hfuel'
        have hrest : Closes length fuel fuel' (scan + 1) (scan' + 1) items :=
          ih (by omega) h.tail _ _ _ _ (by omega) (by omega)
        refine @Closes.pass _ _ _ _ _ _ _ _ _ [.char c] items hrest rfl rfl ?_ ?_
        · show closeRun length (fuel + 1) scan (c :: expand items) = _
          rw [closeRun, if_pos hc]
        · show closeRun length (fuel' + 1) scan' (c :: compress items) = _
          rw [closeRun, if_pos hc]

def covered (regions : List TextRegion) (pos : Nat) : Bool :=
  regions.any fun region => decide (region.start ≤ pos) && decide (pos < region.stop)

theorem covered_cons (region : TextRegion) (regions : List TextRegion) (pos : Nat) :
    covered (region :: regions) pos =
      ((decide (region.start ≤ pos) && decide (pos < region.stop)) || covered regions pos) :=
  List.any_cons

/-- The regions of a scan start at it or later. -/
theorem scanRegions_ge (fuel pos : Nat) (source : List Char) :
    ∀ region ∈ scanRegions fuel pos source, pos ≤ region.start := by
  induction fuel generalizing pos source with
  | zero => intro region hmem; cases hmem
  | succ fuel ih =>
    cases source with
    | nil => intro region hmem; cases hmem
    | cons c source =>
      intro region hmem
      rw [scanRegions] at hmem
      split at hmem
      · exact Nat.le_trans (by omega) (ih _ _ region hmem)
      · split at hmem
        · exact Nat.le_trans (by omega) (ih _ _ region hmem)
        · dsimp only at hmem
          split at hmem
          · next closeEnd hclose =>
            obtain rfl | hmem := List.mem_cons.mp hmem
            · exact Nat.le_refl _
            · have hle := closeRun_ge hclose
              exact Nat.le_trans (by omega) (ih _ _ region hmem)
          · exact Nat.le_trans (by omega) (ih _ _ region hmem)

theorem covered_before {fuel pos k : Nat} {source : List Char} (h : k < pos) :
    covered (scanRegions fuel pos source) k = false := by
  unfold covered
  rw [List.any_eq_false]
  intro region hmem
  have hge := scanRegions_ge fuel pos source region hmem
  simp only [Bool.and_eq_true, decide_eq_true_eq, not_and]
  omega

/-- Both scans, from a place on, cover the same items. -/
def Matches (fuel fuel' pos pos' : Nat) (items : List Item) : Prop :=
  ∀ i < items.length, covered (scanRegions fuel pos (expand items))
      (pos + (expand (items.take i)).length) =
    covered (scanRegions fuel' pos' (compress items)) (pos' + i)

theorem expand_take_lt {front rest : List Item} (h : Named (front ++ rest)) {i : Nat}
    (hi : i < front.length) :
    (expand ((front ++ rest).take i)).length < (expand front).length := by
  rw [List.take_append_of_le_length (by omega)]
  have hsplit := congrArg (fun items => (expand items).length) (List.take_append_drop i front)
  simp only [expand_append, List.length_append] at hsplit
  obtain ⟨item, rest', hdrop⟩ := List.exists_cons_of_length_pos
    (show 0 < (front.drop i).length by rw [List.length_drop]; omega)
  have hnamed : Named (item :: rest' ++ rest) := by
    refine h.suffix ?_
    rw [← hdrop]
    exact ⟨front.take i, by rw [← List.append_assoc, List.take_append_drop]⟩
  have hpos := Item.expand_length_pos hnamed
  rw [hdrop, expand_cons, List.length_append] at hsplit
  omega

theorem expand_take_ge {front rest : List Item} {i : Nat} (hi : front.length ≤ i) :
    (expand ((front ++ rest).take i)).length =
      (expand front).length + (expand (rest.take (i - front.length))).length := by
  rw [List.take_append, List.take_of_length_le hi, expand_append, List.length_append]

/-- Scans that pass some items without a region match when what follows does. -/
theorem Matches.pass {fuel fuel' more more' pos pos' : Nat} {front rest : List Item}
    (hnamed : Named (front ++ rest))
    (h : Matches more more' (pos + (expand front).length) (pos' + front.length) rest)
    (hexpand : scanRegions fuel pos (expand (front ++ rest)) =
      scanRegions more (pos + (expand front).length) (expand rest))
    (hcompress : scanRegions fuel' pos' (compress (front ++ rest)) =
      scanRegions more' (pos' + front.length) (compress rest)) :
    Matches fuel fuel' pos pos' (front ++ rest) := by
  intro i hi
  rw [hexpand, hcompress]
  by_cases hfront : i < front.length
  · have hlt := expand_take_lt hnamed hfront
    rw [covered_before (by omega), covered_before (by omega)]
  · rw [List.length_append] at hi
    have hrest := h (i - front.length) (by omega)
    rw [expand_take_ge (by omega), ← Nat.add_assoc, hrest]
    congr 1
    omega

/-- Scans that cover some items match when what follows does. -/
theorem Matches.cover {fuel fuel' more more' pos pos' : Nat} {front rest : List Item}
    (hnamed : Named (front ++ rest))
    (h : Matches more more' (pos + (expand front).length) (pos' + front.length) rest)
    (hexpand : scanRegions fuel pos (expand (front ++ rest)) =
      ⟨pos, pos + (expand front).length⟩ ::
        scanRegions more (pos + (expand front).length) (expand rest))
    (hcompress : scanRegions fuel' pos' (compress (front ++ rest)) =
      ⟨pos', pos' + front.length⟩ :: scanRegions more' (pos' + front.length) (compress rest)) :
    Matches fuel fuel' pos pos' (front ++ rest) := by
  intro i hi
  rw [hexpand, hcompress, covered_cons, covered_cons]
  by_cases hfront : i < front.length
  · have hlt := expand_take_lt hnamed hfront
    simp [hfront, hlt]
  · rw [List.length_append] at hi
    have hrest := h (i - front.length) (by omega)
    rw [expand_take_ge (by omega), ← Nat.add_assoc, hrest]
    have hindex : pos' + front.length + (i - front.length) = pos' + i := by omega
    have hout : ¬pos + (expand front).length + (expand (rest.take (i - front.length))).length <
        pos + (expand front).length := by omega
    have hout' : ¬pos' + i < pos' + front.length := by omega
    simp only [hindex, hout, hout', decide_false, Bool.and_false, Bool.false_or]

/-- A backslash and what it escapes: the first character of a mention at most. -/
theorem matches_escape {items : List Item} {more more' pos pos' : Nat}
    (h : Named (.char backslash :: items))
    (hrest : ∀ rest, rest <:+ items → rest.length ≤ items.length → ∀ fuel fuel' pos pos' : Nat,
      (expand rest).length ≤ fuel → rest.length ≤ fuel' → Matches fuel fuel' pos pos' rest)
    (hmore : (expand items).length ≤ more) (hmore' : items.length ≤ more') :
    Matches (more + 1) (more' + 1) pos pos' (.char backslash :: items) := by
  have hexpand : scanRegions (more + 1) pos (expand (.char backslash :: items)) =
      scanRegions more (pos + 2) ((expand items).drop 1) := by
    show scanRegions (more + 1) pos (backslash :: expand items) = _
    rw [scanRegions, if_pos rfl]
  have hcompress : scanRegions (more' + 1) pos' (compress (.char backslash :: items)) =
      scanRegions more' (pos' + 2) ((compress items).drop 1) := by
    show scanRegions (more' + 1) pos' (backslash :: compress items) = _
    rw [scanRegions, if_pos rfl]
  match items, h, hmore, hmore' with
  | [], _, _, _ =>
    intro i hi
    obtain rfl : i = 0 := by
      rw [List.length_singleton] at hi
      omega
    rw [hexpand, hcompress]
    exact (covered_before (Nat.lt_add_of_pos_right (by decide))).trans
      (covered_before (Nat.lt_add_of_pos_right (by decide))).symm
  | .char d :: items, h, hmore, hmore' =>
    simp only [expand_cons, Item.expand, List.singleton_append, List.length_cons] at hmore hmore'
    exact @Matches.pass _ _ more more' _ _ [.char backslash, .char d] items h
      (hrest items (List.suffix_cons _ _) (Nat.le_succ _) _ _ _ _ (by omega) (by omega))
      hexpand hcompress
  | .name text :: items, h, hmore, hmore' =>
    obtain ⟨hne, hplain⟩ := h text (List.mem_cons_of_mem _ List.mem_cons_self)
    cases text with
    | nil => exact absurd rfl hne
    | cons c text =>
      simp only [expand_cons, Item.expand, List.length_append, List.length_cons] at hmore hmore'
      obtain ⟨fuel, rfl⟩ : ∃ fuel, more = text.length + fuel := ⟨more - text.length, by omega⟩
      have hlength : (expand [Item.char backslash, .name (c :: text)]).length =
          2 + text.length := by
        simp [Item.expand]
        omega
      refine @Matches.pass _ _ fuel more' _ _ [.char backslash, .name (c :: text)] items h
        (hrest items (List.suffix_cons _ _) (Nat.le_succ _) _ _ _ _ (by omega) (by omega)) ?_
        hcompress
      rw [hlength, ← Nat.add_assoc]
      exact hexpand.trans (scanRegions_plain hplain.tail fuel (pos + 2) (expand items))

/-- A run of backticks, and the region it opens if one closes it. -/
theorem matches_ticks {items : List Item} {more more' pos pos' : Nat}
    (h : Named (.char backtick :: items))
    (hrest : ∀ rest, rest <:+ items → rest.length ≤ items.length → ∀ fuel fuel' pos pos' : Nat,
      (expand rest).length ≤ fuel → rest.length ≤ fuel' → Matches fuel fuel' pos pos' rest)
    (hmore : (expand items).length ≤ more) (hmore' : items.length ≤ more') :
    Matches (more + 1) (more' + 1) pos pos' (.char backtick :: items) := by
  obtain ⟨n, rest, heq, hpos, hrun, hrun', hdrop, hdrop'⟩ := tick_items h
  have hsize := congrArg (fun items => (expand items).length) heq
  have hsize' := congrArg List.length heq
  rw [length_expand_ticks] at hsize
  rw [length_ticks] at hsize'
  simp only [expand_cons, Item.expand, List.singleton_append, List.length_cons] at hsize hsize'
  have hsuffix : rest <:+ items := by
    obtain ⟨n, rfl⟩ : ∃ m, n = m + 1 := ⟨n - 1, by omega⟩
    rw [List.replicate_succ, List.cons_append] at heq
    exact ⟨_, (List.cons.inj heq).2.symm⟩
  have hnamed : Named rest := h.tail.suffix hsuffix
  have hlength : (expand (List.replicate n (.char backtick))).length = n := by
    rw [expand_replicate, List.length_replicate]
  have hexpand : scanRegions (more + 1) pos (expand (.char backtick :: items)) =
      (closeRun n ((expand items).length + 1) (pos + n) (expand rest)).elim
        (scanRegions more (pos + n) (expand rest)) fun closeEnd => ⟨pos, closeEnd⟩ ::
          scanRegions more closeEnd ((backtick :: expand items).drop (closeEnd - pos)) := by
    show scanRegions (more + 1) pos (backtick :: expand items) = _
    rw [scanRegions, if_neg (by decide), if_neg (not_not_intro rfl)]
    dsimp only
    rw [hrun, hdrop]
    cases closeRun n ((expand items).length + 1) (pos + n) (expand rest) <;> rfl
  have hcompress : scanRegions (more' + 1) pos' (compress (.char backtick :: items)) =
      (closeRun n ((compress items).length + 1) (pos' + n) (compress rest)).elim
        (scanRegions more' (pos' + n) (compress rest)) fun closeEnd => ⟨pos', closeEnd⟩ ::
          scanRegions more' closeEnd ((backtick :: compress items).drop (closeEnd - pos')) := by
    show scanRegions (more' + 1) pos' (backtick :: compress items) = _
    rw [scanRegions, if_neg (by decide), if_neg (not_not_intro rfl)]
    dsimp only
    rw [hrun', hdrop']
    cases closeRun n ((compress items).length + 1) (pos' + n) (compress rest) <;> rfl
  have hcloses := closeRun_items n rest.length le_rfl hnamed ((expand items).length + 1)
    ((compress items).length + 1) (pos + n) (pos' + n) (by omega)
    (by rw [compress_length]; omega)
  obtain ⟨hnone, hnone'⟩ | ⟨front, last, rfl, hsome, hsome'⟩ := hcloses
  · rw [hnone] at hexpand
    rw [hnone'] at hcompress
    rw [heq] at h hexpand hcompress ⊢
    refine @Matches.pass _ _ more more' _ _ (List.replicate n (.char backtick)) rest h ?_
      (by rw [hlength]; exact hexpand) (by rw [List.length_replicate]; exact hcompress)
    exact hrest rest hsuffix hsuffix.length_le _ _ _ _ (by omega) (by omega)
  · rw [hsome] at hexpand
    rw [hsome'] at hcompress
    have hlast : last <:+ items := (List.suffix_append front last).trans hsuffix
    have hopen : (expand (List.replicate n (.char backtick) ++ front)).length =
        n + (expand front).length := length_expand_ticks n front
    have hopen' := length_ticks n front
    have hnext : (backtick :: expand items).drop (pos + n + (expand front).length - pos) =
        expand last := by
      rw [show pos + n + (expand front).length - pos = n + (expand front).length by omega,
        ← List.drop_drop, hdrop, expand_append, List.drop_left]
    have hnext' : (backtick :: compress items).drop (pos' + n + front.length - pos') =
        compress last := by
      rw [show pos' + n + front.length - pos' = n + front.length by omega, ← List.drop_drop,
        hdrop', compress_append]
      exact List.drop_left' (compress_length front)
    rw [Option.elim_some] at hexpand hcompress
    rw [hnext] at hexpand
    rw [hnext'] at hcompress
    rw [heq, ← List.append_assoc] at h hexpand hcompress ⊢
    rw [expand_append, List.length_append] at hsize
    rw [List.length_append] at hsize'
    refine @Matches.cover _ _ more more' _ _ (List.replicate n (.char backtick) ++ front) last h ?_
      (by rw [hopen, ← Nat.add_assoc]; exact hexpand)
      (by rw [hopen', ← Nat.add_assoc]; exact hcompress)
    exact hrest last hlast hlast.length_le _ _ _ _ (by omega) (by omega)

/-- The scan covers the same items with the mentions and without. -/
theorem scanRegions_items (k : Nat) {items : List Item} (hk : items.length ≤ k) (h : Named items)
    (fuel fuel' pos pos' : Nat) (hfuel : (expand items).length ≤ fuel)
    (hfuel' : items.length ≤ fuel') : Matches fuel fuel' pos pos' items := by
  induction k generalizing items fuel fuel' pos pos' with
  | zero =>
    intro i hi
    omega
  | succ k ih =>
    match items, h, hk, hfuel, hfuel' with
    | [], _, _, _, _ =>
      intro i hi
      cases hi
    | .name text :: items, h, hk, hfuel, hfuel' =>
      obtain ⟨hne, hplain⟩ := h text List.mem_cons_self
      simp only [expand_cons, Item.expand, List.length_append, List.length_cons] at hk hfuel hfuel'
      obtain ⟨more, rfl⟩ : ∃ more, fuel = text.length + more := ⟨fuel - text.length, by omega⟩
      obtain ⟨more', rfl⟩ : ∃ more, fuel' = more + 1 := ⟨fuel' - 1, by omega⟩
      have hlength : (expand [Item.name text]).length = text.length := by simp [Item.expand]
      refine @Matches.pass _ _ more more' _ _ [.name text] items h
        (ih (by omega) h.tail _ _ _ _ (by omega) (by omega)) ?_ ?_
      · rw [hlength]
        exact scanRegions_plain hplain more pos (expand items)
      · show scanRegions (more' + 1) pos' ('@' :: compress items) = _
        rw [scanRegions, if_neg (by decide), if_pos (by decide)]
        rfl
    | .char c :: items, h, hk, hfuel, hfuel' =>
      simp only [expand_cons, Item.expand, List.singleton_append, List.length_cons]
        at hk hfuel hfuel'
      obtain ⟨more, rfl⟩ : ∃ more, fuel = more + 1 := ⟨fuel - 1, by omega⟩
      obtain ⟨more', rfl⟩ : ∃ more, fuel' = more + 1 := ⟨fuel' - 1, by omega⟩
      by_cases hslash : c = backslash
      · subst hslash
        exact matches_escape h (fun rest hrest hlength => ih (by omega) (h.tail.suffix hrest))
          (by omega) (by omega)
      · by_cases htick : c = backtick
        · subst htick
          exact matches_ticks h (fun rest hrest hlength => ih (by omega) (h.tail.suffix hrest))
            (by omega) (by omega)
        · refine @Matches.pass _ _ more more' _ _ [.char c] items h
            (ih (by omega) h.tail _ _ _ _ (by omega) (by omega)) ?_ ?_
          · show scanRegions (more + 1) pos (c :: expand items) = _
            rw [scanRegions, if_neg hslash, if_pos htick]
            rfl
          · show scanRegions (more' + 1) pos' (c :: compress items) = _
            rw [scanRegions, if_neg hslash, if_pos htick]
            rfl

theorem inCode_items {front rest : List Item} {item : Item}
    (h : Named (front ++ item :: rest)) :
    inCode (expand (front ++ item :: rest)) (expand front).length =
      inCode (compress (front ++ item :: rest)) front.length := by
  have hlt : front.length < (front ++ item :: rest).length := by simp
  have hmatches := scanRegions_items _ le_rfl h (expand (front ++ item :: rest)).length
    (compress (front ++ item :: rest)).length 0 0 le_rfl (by rw [compress_length]) front.length hlt
  rw [List.take_left, Nat.zero_add, Nat.zero_add] at hmatches
  exact hmatches

/-- Pieces of a text, each with what stands there for a mention, and the text after the last. -/
def itemsOf (pieces : List (List Char × List Char)) (tail : List Char) : List Item :=
  pieces.flatMap (fun piece => piece.1.map .char ++ [.name piece.2]) ++ tail.map .char

def joinPieces (pieces : List (List Char × List Char)) (tail : List Char) : List Char :=
  pieces.flatMap (fun piece => piece.1 ++ piece.2) ++ tail

/-- Where what stands for the mentions starts. -/
def nameStarts : Nat → List (List Char × List Char) → List Nat
  | _, [] => []
  | pos, piece :: pieces =>
      (pos + piece.1.length) :: nameStarts (pos + piece.1.length + piece.2.length) pieces

theorem itemsOf_cons (piece : List Char × List Char) (pieces : List (List Char × List Char))
    (tail : List Char) : itemsOf (piece :: pieces) tail =
      piece.1.map .char ++ .name piece.2 :: itemsOf pieces tail := by
  simp [itemsOf]

theorem expand_itemsOf (pieces : List (List Char × List Char)) (tail : List Char) :
    expand (itemsOf pieces tail) = joinPieces pieces tail := by
  induction pieces with
  | nil => exact expand_char tail
  | cons piece pieces ih =>
    rw [itemsOf_cons, expand_append, expand_cons, expand_char, ih]
    simp [joinPieces, Item.expand]

theorem compress_itemsOf {pieces pieces' : List (List Char × List Char)}
    (h : pieces.map Prod.fst = pieces'.map Prod.fst) (tail : List Char) :
    compress (itemsOf pieces tail) = compress (itemsOf pieces' tail) := by
  induction pieces generalizing pieces' with
  | nil =>
    cases pieces' with
    | nil => rfl
    | cons piece' pieces' => cases h
  | cons piece pieces ih =>
    cases pieces' with
    | nil => cases h
    | cons piece' pieces' =>
      obtain ⟨hfirst, hrest⟩ := List.cons.inj h
      rw [itemsOf_cons, itemsOf_cons, compress_append, compress_append, compress_cons,
        compress_cons, hfirst, ih hrest]
      rfl

theorem named_itemsOf {pieces : List (List Char × List Char)} {tail : List Char}
    (h : ∀ piece ∈ pieces, piece.2 ≠ [] ∧ Plain piece.2) : Named (itemsOf pieces tail) := by
  intro text hmem
  rcases List.mem_append.mp hmem with hmem | hmem
  · obtain ⟨piece, hpiece, hmem⟩ := List.mem_flatMap.mp hmem
    rcases List.mem_append.mp hmem with hmem | hmem
    · obtain ⟨c, -, hc⟩ := List.mem_map.mp hmem
      cases hc
    · obtain rfl := Item.name.inj (List.mem_singleton.mp hmem)
      exact h piece hpiece
  · obtain ⟨c, -, hc⟩ := List.mem_map.mp hmem
    cases hc

/-- Whether the mentions are in code is read off the text with one character for each. -/
theorem inCode_nameStarts (front : List Item) (pieces : List (List Char × List Char))
    (tail : List Char) (h : Named (front ++ itemsOf pieces tail)) :
    (nameStarts (expand front).length pieces).map (inCode (expand (front ++ itemsOf pieces tail))) =
      (nameStarts front.length (pieces.map fun piece => (piece.1, ['@']))).map
        (inCode (compress (front ++ itemsOf pieces tail))) := by
  induction pieces generalizing front with
  | nil => rfl
  | cons piece pieces ih =>
    have hsplit : front ++ itemsOf (piece :: pieces) tail =
        (front ++ piece.1.map .char) ++ .name piece.2 :: itemsOf pieces tail := by
      rw [itemsOf_cons, List.append_assoc]
    have hnext : front ++ itemsOf (piece :: pieces) tail =
        (front ++ piece.1.map .char ++ [.name piece.2]) ++ itemsOf pieces tail := by
      rw [hsplit, List.append_assoc _ [_], List.singleton_append]
    have hfirst := inCode_items (hsplit ▸ h)
    have hrest := ih (front ++ piece.1.map .char ++ [.name piece.2]) (hnext ▸ h)
    rw [← hsplit] at hfirst
    rw [← hnext] at hrest
    have hlength : (expand (front ++ piece.1.map .char)).length =
        (expand front).length + piece.1.length := by
      rw [expand_append, expand_char, List.length_append]
    have hlength' : (expand (front ++ piece.1.map .char ++ [.name piece.2])).length =
        (expand front).length + piece.1.length + piece.2.length := by
      rw [expand_append, List.length_append, hlength]
      simp [Item.expand]
    rw [hlength, List.length_append, List.length_map] at hfirst
    rw [hlength', List.length_append, List.length_append, List.length_map,
      List.length_singleton] at hrest
    simp only [nameStarts, List.map_cons, List.length_singleton]
    rw [hfirst, hrest]

/-- Texts that differ in what stands for the mentions have the same mentions in code, where neither
has a backtick or a backslash there. -/
theorem inCode_pieces {pieces pieces' : List (List Char × List Char)} (tail : List Char)
    (hbefore : pieces.map Prod.fst = pieces'.map Prod.fst)
    (h : ∀ piece ∈ pieces, piece.2 ≠ [] ∧ Plain piece.2)
    (h' : ∀ piece ∈ pieces', piece.2 ≠ [] ∧ Plain piece.2) :
    (nameStarts 0 pieces).map (inCode (joinPieces pieces tail)) =
      (nameStarts 0 pieces').map (inCode (joinPieces pieces' tail)) := by
  have hone : ∀ pieces : List (List Char × List Char),
      pieces.map (fun piece => (piece.1, ['@'])) =
        (pieces.map Prod.fst).map fun before => (before, ['@']) := by
    intro pieces
    rw [List.map_map]
    rfl
  have hflags := inCode_nameStarts [] pieces tail (named_itemsOf h)
  have hflags' := inCode_nameStarts [] pieces' tail (named_itemsOf h')
  rw [List.nil_append, expand_itemsOf, hone] at hflags hflags'
  rw [hbefore, compress_itemsOf hbefore] at hflags
  exact hflags.trans hflags'.symm

end Chahua.Mentions
