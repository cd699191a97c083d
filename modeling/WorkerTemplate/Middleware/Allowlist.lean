import Mathlib.Data.List.TakeWhile
import WorkerTemplate.Middleware.StateTracking
import WorkerTemplate.UuidText

/-!
# The allowlists of automatic retries

The settings hold the tenants and the tasks that may be retried as comma-separated lists,
which the gate splits, strips and filters.  However a list is rendered, with padding,
repetitions and blank segments, the gate decides membership in it.
-/

namespace WorkerTemplate

namespace Text

/-! ### Stripping -/

/-- Characters to strip at the two ends of a text do not matter. -/
theorem stripWhile_pad {p : Char → Bool} {pad pad' : Text} (hpad : ∀ c ∈ pad, p c)
    (hpad' : ∀ c ∈ pad', p c) (t : Text) :
  (pad ++ t ++ pad').stripWhile p = t.stripWhile p
  := by
  have hfront (u : Text) : (pad ++ u).dropWhile p = u.dropWhile p := by
    rw [List.dropWhile_append, List.dropWhile_eq_nil_iff.mpr hpad]
    rfl
  have hback (u : Text) : (u ++ pad').reverse.dropWhile p = u.reverse.dropWhile p := by
    have hreverse : pad'.reverse.dropWhile p = [] :=
      List.dropWhile_eq_nil_iff.mpr (fun c hc => hpad' c (List.mem_reverse.mp hc))
    rw [List.reverse_append, List.dropWhile_append, hreverse]
    rfl
  rw [stripWhile, stripWhile, List.append_assoc, hfront, List.dropWhile_append]
  split
  case isTrue hall =>
    rw [List.isEmpty_iff.mp hall, List.dropWhile_eq_nil_iff.mpr hpad']
  case isFalse => rw [hback]

/-- A text of characters to strip is stripped to nothing. -/
theorem stripWhile_eq_nil {p : Char → Bool} {t : Text} (h : ∀ c ∈ t, p c) :
  t.stripWhile p = []
  := by
  rw [stripWhile, List.dropWhile_eq_nil_iff.mpr h]
  rfl

/-- Nothing is stripped from a text whose first and last characters are not to strip. -/
theorem stripWhile_of_ends {p : Char → Bool} {t : Text} (hhead : ∀ c ∈ t.head?, p c = false)
    (hlast : ∀ c ∈ t.getLast?, p c = false) :
  t.stripWhile p = t
  := by
  have hdrop (u : Text) (hu : ∀ c ∈ u.head?, p c = false) : u.dropWhile p = u := by
    cases u with
    | nil => rfl
    | cons c u => apply List.dropWhile_cons_of_neg (by simp [hu c rfl])
  rw [stripWhile, hdrop t hhead, hdrop, List.reverse_reverse]
  rw [List.head?_reverse]
  apply hlast

/-! ### Lists of entries and their renderings -/

/-- A text that can be an entry of a comma-separated list. -/
structure IsEntry (t : Text) : Prop where
  ne_nil : t ≠ []
  comma : ',' ∉ t
  head : ∀ c ∈ t.head?, isSpace c = false
  last : ∀ c ∈ t.getLast?, isSpace c = false

/-- The segment is blank. -/
def IsBlank (segment : Text) : Prop := ∀ c ∈ segment, isSpace c

/-- The segment is the entry with whitespace around it. -/
def Pads (entry segment : Text) : Prop :=
  ∃ pad pad', IsBlank pad ∧ IsBlank pad' ∧ segment = pad ++ entry ++ pad'

/-- The text renders the list: it joins segments by commas, each of which is blank or one
of the entries with whitespace around it, and every entry has a segment. -/
def Renders (t : Text) (list : List Text) : Prop :=
  ∃ segments, t = [','].intercalate segments ∧
    (∀ segment ∈ segments, IsBlank segment ∨ ∃ entry ∈ list, Pads entry segment) ∧
    ∀ entry ∈ list, ∃ segment ∈ segments, Pads entry segment

theorem isBlank_nil : IsBlank [] := by
  intro c hc
  cases hc

theorem isBlank_space : IsBlank [' '] := by
  intro c hc
  rw [List.mem_singleton.mp hc]
  rfl

/-- An entry is a segment without padding. -/
theorem pads_self (entry : Text) : Pads entry entry :=
  ⟨[], [], isBlank_nil, isBlank_nil, (List.append_nil entry).symm⟩

/-- There is no comma in whitespace. -/
theorem IsBlank.comma {t : Text} (h : IsBlank t) : ',' ∉ t := by
  intro hmem
  exact absurd (h _ hmem) (by decide)

theorem IsBlank.strip {t : Text} (h : IsBlank t) : t.strip = [] := stripWhile_eq_nil h

theorem IsEntry.strip {t : Text} (h : t.IsEntry) : t.strip = t := stripWhile_of_ends h.head h.last

theorem Pads.comma {entry segment : Text} (h : Pads entry segment) (hentry : entry.IsEntry) :
  ',' ∉ segment
  := by
  obtain ⟨pad, pad', hpad, hpad', rfl⟩ := h
  simp [hpad.comma, hpad'.comma, hentry.comma]

/-- Stripping a segment gives its entry. -/
theorem Pads.strip {entry segment : Text} (h : Pads entry segment) (hentry : entry.IsEntry) :
  segment.strip = entry
  := by
  obtain ⟨pad, pad', hpad, hpad', rfl⟩ := h
  rw [Text.strip, stripWhile_pad hpad hpad']
  apply hentry.strip

/-- The entries of a rendering are the ones of the list. -/
theorem Renders.mem_entries_iff {t : Text} {list : List Text} (h : t.Renders list)
    (hlist : ∀ entry ∈ list, entry.IsEntry) (entry : Text) :
  entry ∈ t.entries ↔ entry ∈ list
  := by
  obtain ⟨segments, rfl, hsegments, hentries⟩ := h
  by_cases hnil : segments = []
  · -- the empty text is one blank segment
    subst hnil
    have hempty : list = [] := by
      rw [List.eq_nil_iff_forall_not_mem]
      intro entry hentry
      obtain ⟨_, hmem, _⟩ := hentries entry hentry
      cases hmem
    subst hempty
    rfl
  have hcomma : ∀ segment ∈ segments, ',' ∉ segment := by
    intro segment hsegment
    rcases hsegments segment hsegment with hblank | ⟨entry, hentry, hpads⟩
    · apply hblank.comma
    · apply hpads.comma (hlist entry hentry)
  rw [entries, splitComma, List.splitOn_intercalate ',' hcomma hnil, List.mem_filter,
    List.mem_map, decide_eq_true_iff]
  constructor
  · rintro ⟨⟨segment, hsegment, rfl⟩, hne⟩
    rcases hsegments segment hsegment with hblank | ⟨entry, hentry, hpads⟩
    · exact absurd hblank.strip hne
    · rw [hpads.strip (hlist entry hentry)]
      apply hentry
  · intro hentry
    obtain ⟨segment, hsegment, hpads⟩ := hentries entry hentry
    exact ⟨⟨segment, hsegment, hpads.strip (hlist entry hentry)⟩, (hlist entry hentry).ne_nil⟩

end Text

/-! ### The text of a UUID as an entry -/

namespace UUID

/-- Different UUIDs have different texts. -/
theorem text_injective : Function.Injective text := by
  intro u v h
  have hread := congrArg ofText h
  rw [ofText_text, ofText_text] at hread
  exact Option.some.inj hread

/-- The text of a UUID can be an entry of a list. -/
theorem isEntry_text (u : UUID) : u.text.IsEntry := by
  have hspace : ∀ c ∈ u.text, Text.isSpace c = false := by
    intro c hc
    rcases u.isDigit_of_mem_text c hc with hdigit | rfl
    · apply hdigit.space
    · decide
  constructor
  case ne_nil =>
    intro hnil
    have hlength := congrArg List.length u.filter_text
    rw [hnil, Text.length_hexDigits] at hlength
    exact absurd hlength (by decide)
  case comma =>
    intro hmem
    rcases u.isDigit_of_mem_text ',' hmem with hdigit | hhyphen
    · obtain ⟨v, hvalue, -⟩ := hdigit.value
      exact absurd hvalue (by simp [Text.hexDigitValue])
    · exact absurd hhyphen (by decide)
  case head => exact fun c hc => hspace c (List.mem_of_mem_head? hc)
  case last => exact fun c hc => hspace c (List.mem_of_mem_getLast? hc)

end UUID

/-! ### The gate -/

namespace Settings

variable {settings : Settings} {ts : List UUID} {ns : List Text}

/-- The gate is open when retries are enabled and both lists hold their entry: the one
asked for is then a reason why neither list is empty. -/
theorem retryGateAllows_eq_true_iff (taskName : Text) (tenantId : UUID) :
  settings.retryGateAllows taskName tenantId = true ↔
    settings.taskRetryEnabled = true ∧
      tenantId.text ∈ settings.taskRetryTenantAllowlist.entries ∧
      taskName ∈ settings.taskRetryTaskAllowlist.entries
  := by
  rw [retryGateAllows]
  cases settings.taskRetryEnabled with
  | false => simp
  | true =>
      cases settings.taskRetryTenantAllowlist.entries <;>
        cases settings.taskRetryTaskAllowlist.entries <;>
        simp

/-- The gate decides membership in the two lists the settings render, and is shut when one
of them is empty. -/
theorem retryGateAllows_iff (hns : ∀ name ∈ ns, name.IsEntry)
    (htenants : settings.taskRetryTenantAllowlist.Renders (ts.map UUID.text))
    (htasks : settings.taskRetryTaskAllowlist.Renders ns) (taskName : Text) (tenantId : UUID) :
  (settings.retryGateAllows taskName tenantId = true ↔
    settings.taskRetryEnabled = true ∧ tenantId ∈ ts ∧ taskName ∈ ns) ∧
  (ts = [] ∨ ns = [] → settings.retryGateAllows taskName tenantId = false)
  := by
  have htexts : ∀ t ∈ ts.map UUID.text, t.IsEntry := by
    intro t ht
    obtain ⟨u, -, rfl⟩ := List.mem_map.mp ht
    apply u.isEntry_text
  have htenant : tenantId.text ∈ settings.taskRetryTenantAllowlist.entries ↔ tenantId ∈ ts := by
    rw [htenants.mem_entries_iff htexts, List.mem_map_of_injective UUID.text_injective]
  have htask : taskName ∈ settings.taskRetryTaskAllowlist.entries ↔ taskName ∈ ns :=
    htasks.mem_entries_iff hns taskName
  have hgate : settings.retryGateAllows taskName tenantId = true ↔
      settings.taskRetryEnabled = true ∧ tenantId ∈ ts ∧ taskName ∈ ns := by
    rw [retryGateAllows_eq_true_iff, htenant, htask]
  refine ⟨hgate, ?_⟩
  rintro hempty
  rw [← Bool.not_eq_true, hgate]
  rintro ⟨-, hmem, hmem'⟩
  rcases hempty with rfl | rfl
  · cases hmem
  · cases hmem'

/-- Settings that render one tenant, padded and with blank segments, and one task, twice. -/
def padded : Settings where
  taskRetryEnabled := true
  taskRetryTenantAllowlist := ' ' :: (UUID.text 7 ++ " , ,".toList)
  taskRetryTaskAllowlist := "send, send".toList
  noResultText := "no result"

/-- The gate is open for the tenant and the task of these settings, and shut for a prefix of
the task's name. -/
theorem retryGateAllows_iff_padded :
  padded.retryGateAllows "send".toList 7 = true ∧ padded.retryGateAllows "sen".toList 7 = false
  := by
  have htenants : padded.taskRetryTenantAllowlist.Renders ([7].map UUID.text) := by
    have hpads : Text.Pads (UUID.text 7) (' ' :: (UUID.text 7 ++ [' '])) :=
      ⟨[' '], [' '], Text.isBlank_space, Text.isBlank_space, rfl⟩
    refine ⟨[' ' :: (UUID.text 7 ++ [' ']), [' '], []], by decide, ?_, ?_⟩
    · simp only [List.forall_mem_cons]
      refine ⟨.inr ⟨_, List.mem_cons_self, hpads⟩, ?_⟩
      exact ⟨.inl Text.isBlank_space, .inl Text.isBlank_nil, by simp⟩
    · simp only [List.map_cons, List.map_nil, List.mem_singleton, forall_eq]
      exact ⟨_, List.mem_cons_self, hpads⟩
  have htasks : padded.taskRetryTaskAllowlist.Renders ["send".toList] := by
    have hpads : Text.Pads "send".toList " send".toList :=
      ⟨[' '], [], Text.isBlank_space, Text.isBlank_nil, rfl⟩
    refine ⟨["send".toList, " send".toList], by decide, ?_, ?_⟩
    · simp only [List.forall_mem_cons]
      refine ⟨.inr ⟨_, List.mem_cons_self, Text.pads_self _⟩, ?_⟩
      exact ⟨.inr ⟨_, List.mem_cons_self, hpads⟩, by simp⟩
    · simp only [List.mem_singleton, forall_eq]
      exact ⟨_, List.mem_cons_self, Text.pads_self _⟩
  have hnames : ∀ name ∈ ["send".toList], Text.IsEntry name := by
    simp only [List.mem_singleton, forall_eq]
    constructor
    case ne_nil => decide
    case comma => decide
    case head => simp [Text.isSpace]
    case last => simp [Text.isSpace]
  have hgate := retryGateAllows_iff hnames htenants htasks
  refine ⟨(hgate "send".toList 7).1.mpr ⟨rfl, by decide, by decide⟩, ?_⟩
  rw [← Bool.not_eq_true, (hgate "sen".toList 7).1]
  rintro ⟨-, -, hmem⟩
  exact absurd hmem (by decide)

end Settings

end WorkerTemplate
