import HaBirdie.PythonValues
import Mathlib.Data.List.Basic

/-!
# The addresses of a network search

`addresses_to_search` lists the hosts around the machine's own private addresses.  It collects
them as texts, one network after the other, and returns from the middle of its loops when it has
enough.

The intended list (`intendedAddresses`) is written without loops: all hosts of all networks in
order, without the machine's own addresses and without repetitions.  The code returns the
beginning of it (`addressesToSearch_eq`).  Comparing texts is as good as comparing addresses,
because no two addresses have the same text (`IPv4Address.str_injective`).
-/

namespace Lan

open Python

/-! ## IPv4 addresses and networks -/

/-- An IPv4 address, as a number. -/
abbrev IPv4Address := Fin (2 ^ 32)

namespace IPv4Address

/-- The octet that is followed by `i` others. -/
def octet (ip : IPv4Address) (i : Nat) : Nat := ip.val / 256 ^ i % 256

/-- `str(ip)`: the dotted quad. -/
def str (ip : IPv4Address) : PyStr :=
  numeral (octet ip 3) ++ py "." ++ numeral (octet ip 2) ++ py "." ++ numeral (octet ip 1) ++
    py "." ++ numeral (octet ip 0)

/-- `ip.is_loopback`: in `127.0.0.0/8`. -/
def isLoopback (ip : IPv4Address) : Bool := octet ip 3 == 127

/-- `ip.is_link_local`: in `169.254.0.0/16`. -/
def isLinkLocal (ip : IPv4Address) : Bool := octet ip 3 == 169 && octet ip 2 == 254

end IPv4Address

/-- An IPv4 network: its first address and the length of the prefix. -/
structure IPv4Network where
  networkAddress : IPv4Address
  prefixlen : Fin 33

/-- `ip_network(f"{ip}/{prefixlen}", strict=False)`: the host bits of the address are cleared. -/
def IPv4Network.around (ip : IPv4Address) (prefixlen : Fin 33) : IPv4Network :=
  { networkAddress := Fin.ofNat (2 ^ 32) (ip.val - ip.val % 2 ^ (32 - prefixlen.val))
    prefixlen }

/-- `network.hosts()`: without the first and the last address, unless there are no others. -/
def IPv4Network.hosts (network : IPv4Network) : List IPv4Address :=
  let first := network.networkAddress.val
  if network.prefixlen = 32 then [network.networkAddress]
  else if network.prefixlen = 31 then [network.networkAddress, Fin.ofNat (2 ^ 32) (first + 1)]
  else (List.range' (first + 1) (2 ^ (32 - network.prefixlen.val) - 2)).map (Fin.ofNat (2 ^ 32))

/-- An address of this machine, with the network it is in. -/
structure IPv4Interface where
  ip : IPv4Address
  prefixlen : Fin 33

/-- `interface.network`. -/
def IPv4Interface.network (interface : IPv4Interface) : IPv4Network :=
  IPv4Network.around interface.ip interface.prefixlen

/-! ## The function -/

/-- `MAX_ADDRESSES`. -/
def maxAddresses : Nat := 1024

/-- `SMALLEST_PREFIX`. -/
def smallestPrefix : Fin 33 := 24

/-- `addresses` and `seen`. -/
structure Collected where
  addresses : List PyStr := []
  seen : List PyStr := []

/-- The body of the loop over hosts.  Its `return` is the error. -/
def collectHost (limit : Nat) (own : List PyStr) (c : Collected) (host : IPv4Address) :
    Except (List PyStr) Collected :=
  let address := host.str
  if own.contains address || c.seen.contains address then .ok c
  else
    let c' : Collected :=
      { addresses := c.addresses ++ [address], seen := address :: c.seen }
    if limit ≤ c'.addresses.length then .error c'.addresses else .ok c'

variable (isPrivate : IPv4Address → Bool)

/-- The body of the loop over interfaces. -/
def collectInterface (limit : Nat) (own : List PyStr) (c : Collected)
    (interface : IPv4Interface) : Except (List PyStr) Collected :=
  let ip := interface.ip
  if !isPrivate ip || ip.isLoopback || ip.isLinkLocal then .ok c
  else
    let network :=
      if interface.network.prefixlen < smallestPrefix then IPv4Network.around ip smallestPrefix
      else interface.network
    network.hosts.foldlM (collectHost limit own) c

/-- What is returned, from inside the loops or after them. -/
def returnedAddresses : Except (List PyStr) Collected → List PyStr
  | .ok c => c.addresses
  | .error addresses => addresses

/-- `addresses_to_search`, over `ip.is_private` and the limit. -/
def addressesUpTo (limit : Nat) (interfaces : List IPv4Interface) : List PyStr :=
  let own := interfaces.map fun interface => interface.ip.str
  returnedAddresses (interfaces.foldlM (collectInterface isPrivate limit own) {})

/-- `addresses_to_search`. -/
def addressesToSearch : List IPv4Interface → List PyStr := addressesUpTo isPrivate maxAddresses

/-! ## The intended addresses -/

/-- An interface whose surroundings are searched. -/
def IPv4Interface.isSearched (interface : IPv4Interface) : Bool :=
  isPrivate interface.ip && !interface.ip.isLoopback && !interface.ip.isLinkLocal

/-- The hosts around an interface. -/
def IPv4Interface.surroundings (interface : IPv4Interface) : List IPv4Address :=
  if interface.prefixlen < 24 then (IPv4Network.around interface.ip 24).hosts
  else interface.network.hosts

/-- All addresses that may be searched, in order and each once. -/
def intendedAddresses (interfaces : List IPv4Interface) : List IPv4Address :=
  (((interfaces.filter fun interface => interface.isSearched isPrivate).flatMap
    IPv4Interface.surroundings).filter fun address =>
      !interfaces.any fun interface => interface.ip == address).eraseDups

/-! ## Texts of addresses -/

/-- The texts of octets can be read back, and have no dots. -/
theorem numeral_octet : ∀ o : Fin 256,
    intOfStr (numeral o.val) = .ok o.val ∧ (46 : CodePoint) ∉ numeral o.val := by
  decide +kernel

/-- What comes before the first dot, and after it.  Neither `s` nor `t` has a dot, so the two cuts
are the same. -/
theorem split_at_dot {s t u v : PyStr} (hs : (46 : CodePoint) ∉ s) (ht : (46 : CodePoint) ∉ t)
    (h : s ++ py "." ++ u = t ++ py "." ++ v) : s = t ∧ u = v := by
  induction s generalizing t with
  | nil =>
      cases t with
      | nil => exact ⟨rfl, List.cons.inj h |>.2⟩
      | cons d t => exact absurd (List.mem_cons.mpr (Or.inl (List.cons.inj h).1)) ht
  | cons c s ih =>
      cases t with
      | nil => exact absurd (List.mem_cons.mpr (Or.inl (List.cons.inj h).1.symm)) hs
      | cons d t =>
          obtain ⟨hcd, hrest⟩ := List.cons.inj h
          obtain ⟨hst, huv⟩ := ih (fun hmem => hs (List.mem_cons_of_mem c hmem))
            (fun hmem => ht (List.mem_cons_of_mem d hmem)) hrest
          exact ⟨by rw [hcd, hst], huv⟩

/-- The numeral of an octet determines it. -/
theorem octet_inj {m n : Nat} (hm : m < 256) (hn : n < 256) (h : numeral m = numeral n) :
    m = n := by
  have hvalues := congrArg intOfStr h
  rw [(numeral_octet ⟨m, hm⟩).1, (numeral_octet ⟨n, hn⟩).1] at hvalues
  exact_mod_cast Except.ok.inj hvalues

/-- **Different addresses have different texts.**  The four numbers are read off between the dots,
one by one. -/
theorem IPv4Address.str_injective : Function.Injective IPv4Address.str := by
  intro a b h
  have hlt : ∀ (ip : IPv4Address) (i : Nat), octet ip i < 256 :=
    fun ip i => Nat.mod_lt _ (by decide)
  have hdot : ∀ (ip : IPv4Address) (i : Nat), (46 : CodePoint) ∉ numeral (octet ip i) :=
    fun ip i => (numeral_octet ⟨octet ip i, hlt ip i⟩).2
  unfold IPv4Address.str at h
  simp only [List.append_assoc] at h
  simp only [← List.append_assoc (numeral _) (py ".")] at h
  obtain ⟨h3, h⟩ := split_at_dot (hdot a 3) (hdot b 3) h
  obtain ⟨h2, h⟩ := split_at_dot (hdot a 2) (hdot b 2) h
  obtain ⟨h1, h0⟩ := split_at_dot (hdot a 1) (hdot b 1) h
  replace h3 := octet_inj (hlt a 3) (hlt b 3) h3
  replace h2 := octet_inj (hlt a 2) (hlt b 2) h2
  replace h1 := octet_inj (hlt a 1) (hlt b 1) h1
  replace h0 := octet_inj (hlt a 0) (hlt b 0) h0
  unfold octet at h0 h1 h2 h3
  have ha := a.isLt
  have hb := b.isLt
  exact Fin.ext (by omega)

/-! ## The loops -/

/-- The interfaces that are passed over. -/
theorem skipped_eq (interface : IPv4Interface) :
    (!isPrivate interface.ip || interface.ip.isLoopback || interface.ip.isLinkLocal) =
      !interface.isSearched isPrivate := by
  unfold IPv4Interface.isSearched
  simp only [Bool.not_and, Bool.not_not]

/-- Networks are narrowed as intended. -/
theorem surroundings_eq (interface : IPv4Interface) :
    (if interface.network.prefixlen < smallestPrefix then
      IPv4Network.around interface.ip smallestPrefix
      else interface.network).hosts = interface.surroundings := by
  unfold IPv4Interface.surroundings
  exact apply_ite IPv4Network.hosts _ _ _

/-- The loop over interfaces is one loop over all hosts.  The limit ends both at the same host. -/
theorem foldlM_collectInterface (limit : Nat) (own : List PyStr) (c : Collected)
    (interfaces : List IPv4Interface) :
    interfaces.foldlM (collectInterface isPrivate limit own) c =
      ((interfaces.filter fun interface => interface.isSearched isPrivate).flatMap
        IPv4Interface.surroundings).foldlM (collectHost limit own) c := by
  induction interfaces generalizing c with
  | nil => rfl
  | cons interface interfaces ih =>
      have hbody : collectInterface isPrivate limit own c interface =
          if interface.isSearched isPrivate then
            interface.surroundings.foldlM (collectHost limit own) c
          else .ok c := by
        unfold collectInterface
        dsimp only
        rw [skipped_eq, surroundings_eq]
        cases interface.isSearched isPrivate <;> rfl
      rw [List.foldlM_cons, hbody]
      by_cases hsearched : interface.isSearched isPrivate
      · rw [if_pos hsearched, List.filter_cons_of_pos hsearched, List.flatMap_cons,
          List.foldlM_append]
        cases interface.surroundings.foldlM (collectHost limit own) c with
        | error addresses => rfl
        | ok c' => exact ih c'
      · rw [if_neg hsearched, List.filter_cons_of_neg hsearched]
        exact ih c

/-- Filtering against one more text. -/
theorem filter_contains_append (own known : List PyStr) (text : PyStr) (texts : List PyStr) :
    (texts.filter fun address =>
      !own.contains address && !(known ++ [text]).contains address) =
    (texts.filter fun address => !own.contains address && !known.contains address).filter
      fun address => !address == text := by
  rw [List.filter_filter]
  apply List.filter_congr
  intro address _
  rw [List.contains_append, List.contains_cons, List.contains_nil, Bool.or_false]
  cases own.contains address <;> cases known.contains address <;> cases address == text <;> rfl

/-- **The loop over hosts.**  It appends the new texts up to the limit.  By induction on the hosts:
each one is skipped, appended, or reaches the limit. -/
theorem foldlM_collectHost {limit : Nat} (own : List PyStr) (hosts : List IPv4Address)
    {c : Collected} (hlength : c.addresses.length < limit)
    (hseen : ∀ address, address ∈ c.seen ↔ address ∈ c.addresses) :
    returnedAddresses (hosts.foldlM (collectHost limit own) c) =
      (c.addresses ++ ((hosts.map IPv4Address.str).filter fun address =>
        !own.contains address && !c.addresses.contains address).eraseDups).take limit := by
  induction hosts generalizing c with
  | nil =>
      show c.addresses = _
      rw [List.map_nil, List.filter_nil, List.eraseDups_nil, List.append_nil,
        List.take_of_length_le (by omega)]
  | cons host hosts ih =>
      have hcontains : c.seen.contains host.str = c.addresses.contains host.str := by
        rw [Bool.eq_iff_iff, List.contains_iff_mem, List.contains_iff_mem]
        exact hseen host.str
      rw [List.foldlM_cons, List.map_cons]
      cases hskip : own.contains host.str || c.seen.contains host.str with
      | true =>
          have hdrop : (!own.contains host.str && !c.addresses.contains host.str) = false := by
            rw [← Bool.not_or, ← hcontains, hskip]
            rfl
          rw [List.filter_cons, hdrop, collectHost, hskip]
          exact ih hlength hseen
      | false =>
          have hkeep : (!own.contains host.str && !c.addresses.contains host.str) = true := by
            rw [← Bool.not_or, ← hcontains, hskip]
            rfl
          rw [List.filter_cons, if_pos hkeep, List.eraseDups_cons, ← filter_contains_append,
            collectHost, hskip]
          by_cases hfull : limit ≤ (c.addresses ++ [host.str]).length
          · have hexact : limit = (c.addresses ++ [host.str]).length := by
              rw [List.length_append, List.length_singleton] at hfull ⊢
              omega
            simp only [Bool.false_eq_true, if_false, if_pos hfull]
            show c.addresses ++ [host.str] = _
            generalize @List.eraseDups PyStr _ _ = rest
            rw [List.append_cons c.addresses host.str rest, hexact, List.take_left]
          · simp only [Bool.false_eq_true, if_false, if_neg hfull]
            have hnext := ih
              (c := { addresses := c.addresses ++ [host.str], seen := host.str :: c.seen })
              (not_le.mp hfull)
              (fun address => by
                simp only [List.mem_cons, List.mem_append, hseen address, List.not_mem_nil,
                  or_false]
                exact or_comm)
            refine hnext.trans ?_
            dsimp only
            rw [List.append_cons c.addresses host.str (@List.eraseDups PyStr _ _)]

/-! ## First occurrences -/

/-- First occurrences are the same before and after an injective map.  The recursion is on the list
without the copies of its head. -/
theorem eraseDups_map {α β : Type} [BEq α] [LawfulBEq α] [BEq β] [LawfulBEq β] {f : α → β}
    (hf : Function.Injective f) : ∀ l : List α, (l.map f).eraseDups = l.eraseDups.map f
  | [] => rfl
  | a :: l => by
      have hshorter : (l.filter fun b => !b == a).length < l.length + 1 :=
        Nat.lt_succ_of_le (List.length_filter_le _ _)
      have hfilter : (l.map f).filter (fun b => !b == f a) = (l.filter fun b => !b == a).map f := by
        rw [List.filter_map]
        congr 1
        apply List.filter_congr
        intro b _
        show (!(f b == f a)) = !(b == a)
        have hsame : (f b == f a) = (b == a) := by
          rw [Bool.eq_iff_iff, beq_iff_eq, beq_iff_eq]
          exact hf.eq_iff
        rw [hsame]
      rw [List.map_cons, List.eraseDups_cons, List.eraseDups_cons, List.map_cons, hfilter,
        eraseDups_map hf]
termination_by l => l.length

/-! ## What is returned -/

/-- The addresses for any limit: the two loops are one, and texts are as good as addresses. -/
theorem addressesUpTo_eq {limit : Nat} (hlimit : 0 < limit) (interfaces : List IPv4Interface) :
    addressesUpTo isPrivate limit interfaces =
      ((intendedAddresses isPrivate interfaces).take limit).map IPv4Address.str := by
  unfold addressesUpTo
  dsimp only
  rw [foldlM_collectInterface, foldlM_collectHost _ _ hlimit (by simp)]
  unfold intendedAddresses
  rw [List.nil_append, List.filter_map, List.map_take]
  rw [eraseDups_map IPv4Address.str_injective]
  congr 3
  refine List.filter_congr fun address _ => ?_
  show (!_ && !([] : List PyStr).contains address.str) = _
  rw [List.contains_nil, Bool.not_false, Bool.and_true]
  congr 1
  rw [Bool.eq_iff_iff, List.contains_iff_mem, List.mem_map, List.any_eq_true]
  refine exists_congr fun interface => and_congr_right fun _ => ?_
  rw [beq_iff_eq]
  exact IPv4Address.str_injective.eq_iff

/-- **The addresses to search are the intended ones**, up to the limit. -/
theorem addressesToSearch_eq (interfaces : List IPv4Interface) :
    addressesToSearch isPrivate interfaces =
      ((intendedAddresses isPrivate interfaces).take maxAddresses).map IPv4Address.str :=
  addressesUpTo_eq isPrivate (by decide) interfaces

/-- `172.17.0.2/30` twice. -/
example : addressesToSearch (fun _ => true) [⟨0xac110002, 30⟩, ⟨0xac110002, 30⟩] =
    [py "172.17.0.1"] := by decide +kernel

end Lan
