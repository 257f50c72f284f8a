/-
# The listener processor

Attaches the valid hosts of a DAG to one HTTP and one HTTPS listener.
-/

import Sesame.Lib.Sort
import Sesame.Dag.Graph

namespace Sesame.Dag.ListenerProcessor

open List
open Lib

variable {vh : VirtualHost} {svh : SecureVirtualHost}

/-- `HTTP_LISTENER_NAME`. -/
def httpListenerName : String := "ingress_http"

/-- `HTTPS_LISTENER_NAME`. -/
def httpsListenerName : String := "ingress_https"

variable (ord : MapOrder) (d : DAG)

/-- The hosts that `buildHTTPListener` attaches. -/
def httpHosts : List VirtualHost :=
  sortStable (fun a b => a.name < b.name)
    ((ord.values "buildHTTPListener" d.virtualHosts).filter (·.valid))

/-- The hosts that `buildHTTPSListener` attaches. -/
def httpsHosts : List SecureVirtualHost :=
  sortStable (fun a b => a.name < b.name)
    ((ord.values "buildHTTPSListener" d.secureVirtualHosts).filter (·.valid))

def buildHTTPListener : DAG :=
  match httpHosts ord d with
  | [] => d
  | vhosts =>
    let http : Listener := { name := httpListenerName, port := 80, virtualHosts := vhosts }
    { d with listeners := d.listeners ++ [http] }

def buildHTTPSListener : DAG :=
  match httpsHosts ord d with
  | [] => d
  | vhosts =>
    let https : Listener := { name := httpsListenerName, port := 443, secureVirtualHosts := vhosts }
    { d with listeners := d.listeners ++ [https] }

def run : DAG := buildHTTPSListener ord (buildHTTPListener ord d)

/-- The listener of a list of plaintext hosts, if there are any. -/
def httpListener : List VirtualHost → List Listener
  | [] => []
  | vhosts => [{ name := httpListenerName, port := 80, virtualHosts := vhosts }]

/-- The listener of a list of secure hosts, if there are any. -/
def httpsListener : List SecureVirtualHost → List Listener
  | [] => []
  | vhosts => [{ name := httpsListenerName, port := 443, secureVirtualHosts := vhosts }]

variable {ord d}

theorem buildHTTPListener_eq : buildHTTPListener ord d =
    { d with listeners := d.listeners ++ httpListener (httpHosts ord d) } := by
  unfold buildHTTPListener
  split
  · next h => simp [h, httpListener]
  · next h => rw [httpListener]; exact h

theorem buildHTTPSListener_eq : buildHTTPSListener ord d =
    { d with listeners := d.listeners ++ httpsListener (httpsHosts ord d) } := by
  unfold buildHTTPSListener
  split
  · next h => simp [h, httpsListener]
  · next h => rw [httpsListener]; exact h

/-- What a run attaches. -/
theorem run_eq : run ord d =
    { d with
      listeners := d.listeners ++ httpListener (httpHosts ord d) ++
        httpsListener (httpsHosts ord d) } := by
  rw [run, buildHTTPSListener_eq, buildHTTPListener_eq]
  rfl

theorem mem_httpHosts :
    vh ∈ httpHosts ord d ↔ (∃ key, d.virtualHosts.lookup key = some vh) ∧ vh.valid := by
  rw [httpHosts, mem_sortStable, mem_filter, ord.mem_values]

theorem mem_httpsHosts :
    svh ∈ httpsHosts ord d ↔ (∃ key, d.secureVirtualHosts.lookup key = some svh) ∧ svh.valid := by
  rw [httpsHosts, mem_sortStable, mem_filter, ord.mem_values]

theorem mem_httpListener {vhosts : List VirtualHost} :
    (∃ l ∈ httpListener vhosts, vh ∈ l.virtualHosts) ↔ vh ∈ vhosts := by
  cases vhosts <;> simp [httpListener]

theorem mem_httpsListener {vhosts : List SecureVirtualHost} :
    (∃ l ∈ httpsListener vhosts, svh ∈ l.secureVirtualHosts) ↔ svh ∈ vhosts := by
  cases vhosts <;> simp [httpsListener]

theorem listeners_run (hd : d.listeners = []) : (run ord d).listeners =
    httpListener (httpHosts ord d) ++ httpsListener (httpsHosts ord d) := by
  rw [run_eq, hd, nil_append]

/-- The plaintext hosts of a DAG after the processor has run. -/
theorem mem_httpHosts_of_run (hd : d.listeners = [])
    (h : ∃ l ∈ (run ord d).listeners, vh ∈ l.virtualHosts) : vh ∈ httpHosts ord d := by
  have hhttps : ∀ l ∈ httpsListener (httpsHosts ord d), l.virtualHosts = [] := by
    cases httpsHosts ord d <;> simp [httpsListener]
  rw [listeners_run hd] at h
  obtain ⟨l, hl, hvh⟩ := h
  rcases mem_append.mp hl with hl | hl
  · exact mem_httpListener.mp ⟨l, hl, hvh⟩
  · rw [hhttps l hl] at hvh
    cases hvh

/-- The secure hosts of a DAG after the processor has run. -/
theorem mem_secureVirtualHosts_run (hd : d.listeners = []) :
    (∃ l ∈ (run ord d).listeners, svh ∈ l.secureVirtualHosts) ↔ svh ∈ httpsHosts ord d := by
  have hhttp : ∀ l ∈ httpListener (httpHosts ord d), l.secureVirtualHosts = [] := by
    cases httpHosts ord d <;> simp [httpListener]
  rw [listeners_run hd, ← mem_httpsListener]
  constructor
  · rintro ⟨l, hl, hsvh⟩
    rcases mem_append.mp hl with hl | hl
    · rw [hhttp l hl] at hsvh
      cases hsvh
    · exact ⟨l, hl, hsvh⟩
  · rintro ⟨l, hl, hsvh⟩
    exact ⟨l, mem_append_right _ hl, hsvh⟩

end Sesame.Dag.ListenerProcessor
