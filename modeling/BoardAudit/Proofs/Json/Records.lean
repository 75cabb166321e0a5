import BoardAudit.Json.Record
import BoardAudit.Proofs.Json.Reading

/-!
# Reading back records

A record has its members as fields, if these are some of the fields in their order
(`fields?_record`). A codec pairs what writes a value with what reads one; it is exact if it reads back
what it writes (`Codec.Exact`).
-/

namespace BoardAudit.Json

/-! ### Fields -/

variable {names : List String} {members : List (String × Json)}

lemma members?_record (hnodup : (members.map Prod.fst).Nodup) (hnames : ∀ m ∈ members, m.1 ∈ names) :
    members? names (members.map fun m => (some m.1, m.2)) = some members := by
  induction members with
  | nil => rfl
  | cons m members ih =>
    obtain ⟨key, value⟩ := m
    rw [List.map_cons, List.nodup_cons] at hnodup
    rw [List.forall_mem_cons] at hnames
    have habsent : members.lookup key = none := by
      rw [List.lookup_eq_none_iff]
      intro m hm
      have hmem : m.1 ∈ members.map Prod.fst := List.mem_map_of_mem hm
      have hne : key ≠ m.1 := fun he => hnodup.1 (he ▸ hmem)
      simpa using hne
    rw [List.map_cons, members?, ih hnodup.2 hnames.2]
    simp [hnames.1, habsent]

/-- A record whose members are some of the fields in their order has these members as fields. -/
theorem fields?_record (h : (members.map Prod.fst).Sublist names) (hnodup : names.Nodup) :
    (record members).fields? names = some members :=
  members?_record (h.nodup hnodup) fun _ hm => h.subset (List.mem_map_of_mem hm)

namespace Fields

variable {α : Type} {fields : Fields} {name : String}

/-- A field that is written if there is a value, and not as `null`, reads back. -/
lemma optional_map (write : α → Json) (v : Option α) {read? : Json → Option α}
    (h : fields.lookup name = v.map write) (hnull : ∀ a, write a ≠ .null)
    (hread : ∀ a, read? (write a) = some a) : fields.optional name read? = some v := by
  cases v with
  | none => rw [optional, h, Option.map_none]
  | some a =>
    rw [optional, h, Option.map_some]
    split
    · next he => cases he
    · next he => exact absurd (Option.some.inj he) (hnull a)
    · next value _ he => rw [← Option.some.inj he, hread, Option.map_some]

end Fields

/-! ### Codecs -/

/-- A way to write the values of a type and to read them. -/
structure Codec (α : Type) where
  write : α → Json
  read? : Json → Option α

namespace Codec

variable {α : Type} (c : Codec α)

/-- The text of a value. -/
def encode (v : α) : String := (c.write v).compress

/-- The value of a text. -/
def decode? (s : String) : Option α := (ofText? s).bind c.read?

/-- Every value is read from its text, and in whichever way a value was spelled, its own text gives it
back. -/
def Exact : Prop :=
  (∀ v, c.decode? (c.encode v) = some v) ∧
    ∀ s, ((c.decode? s).bind fun v => c.decode? (c.encode v)) = c.decode? s

/-- The text in between loses nothing. -/
lemma decode?_encode (v : α) : c.decode? (c.encode v) = c.read? (c.write v) := by
  rw [decode?, encode, ofText?_compress, Option.bind_some]

variable {c}

/-- A codec is exact if what it writes is read back. -/
lemma exact_of (h : ∀ v, c.read? (c.write v) = some v) : c.Exact := by
  have hback : ∀ v, c.decode? (c.encode v) = some v := fun v => (c.decode?_encode v).trans (h v)
  refine ⟨hback, fun s => ?_⟩
  rw [funext hback]
  exact Option.bind_fun_some _

end Codec

end BoardAudit.Json
